import Mathlib.Data.Bool.AllAny
import NetlinkHub.Run.Tally
import NetlinkHub.Text.Exposition

/-! # Metrics

`metrics.service.ts`: counters, gauges and latency histograms, kept by the text of their labels and rendered for
a scraper. What is scraped is what happened, sample for sample, whatever the values of the labels are
(`scrape_render`). -/

namespace Metrics

open Exposition (IsName Line Sample)

/-! ## Numbers, labels -/

/-- The numbers of the language: how they are added, compared and written. -/
structure Numbers where
  V : Type
  zero : V
  one : V
  add : V → V → V
  le : V → V → Bool
  literal : String → V
  text : V → List Char
  /-- No number is written with a quote, a backslash or a line end. -/
  plain : ∀ v, ∀ c ∈ text v, c ≠ '"' ∧ c ≠ '\\' ∧ c ≠ '\n'

/-- `localeCompare`, on names. -/
structure Collation where
  le : List Char → List Char → Bool
  total : ∀ a b, le a b || le b a
  trans : ∀ a b c, le a b → le b c → le a c
  antisymm : ∀ a b, IsName a → IsName b → le a b → le b a → a = b

/-- The labels of an event: an object whose keys are names. -/
structure Labels where
  entries : List (List Char × List Char)
  nodup : (entries.map Prod.fst).Nodup
  names : ∀ entry ∈ entries, IsName entry.1

/-- `replace`, of all occurrences of a letter. -/
def replaceAll (c : Char) (text s : List Char) : List Char := s.flatMap fun d => if d = c then text else [d]

/-- `escapeLabel`. -/
def escapeLabel (value : List Char) : List Char :=
  replaceAll '\n' ['\\', 'n'] (replaceAll '"' ['\\', '"'] (replaceAll '\\' ['\\', '\\'] value))

variable (C : Collation) (num : Numbers)

/-- The labels in their order. -/
def Labels.sorted (labels : Labels) : List (List Char × List Char) :=
  labels.entries.mergeSort fun a b => C.le a.1 b.1

/-- `serialiseLabels`. -/
def serialiseLabels (labels : Labels) : List Char :=
  if labels.entries = [] then []
  else '{' :: [','].intercalate ((labels.sorted C).map fun (key, value) =>
    key ++ '=' :: '"' :: escapeLabel value ++ ['"']) ++ ['}']

/-! ## The service -/

/-- A counter or a gauge. -/
structure Counter where
  help : List Char
  values : List (List Char × num.V)

/-- One slot per bucket, a count and a sum. -/
structure Counts where
  buckets : List num.V
  count : num.V
  sum : num.V

/-- A histogram. -/
structure Histogram where
  help : List Char
  buckets : List num.V
  series : List (List Char × Counts num)

/-- `MetricsService`. -/
structure MetricsService where
  counters : List (List Char × Counter num)
  gauges : List (List Char × Counter num)
  histograms : List (List Char × Histogram num)

/-- `LATENCY_BUCKETS`, in seconds. -/
def latencyBuckets : List num.V := ["0.01", "0.05", "0.1", "0.25", "0.5", "1", "2.5", "5", "10"].map num.literal

variable {num}

/-- A value is put under its labels. -/
def Counter.put (key : List Char) (value : Option num.V → num.V) (counter : Counter num) : Counter num :=
  { counter with values := Tally.upsert key value counter.values }

/-- `increment`. -/
def MetricsService.increment (name help : List Char) (labels : Labels) (amount : num.V) (m : MetricsService num) :
    MetricsService num :=
  { m with
    counters := Tally.upsert name (fun found => (found.getD ⟨help, []⟩).put (serialiseLabels C labels)
      fun value => num.add (value.getD num.zero) amount) m.counters }

/-- `setGauge`. -/
def MetricsService.setGauge (name help : List Char) (value : num.V) (labels : Labels) (m : MetricsService num) :
    MetricsService num :=
  { m with
    gauges := Tally.upsert name (fun found => (found.getD ⟨help, []⟩).put (serialiseLabels C labels)
      fun _ => value) m.gauges }

/-- A series without an observation. -/
def Counts.fresh (buckets : List num.V) : Counts num := ⟨buckets.map fun _ => num.zero, num.zero, num.zero⟩

/-- One more observation. -/
def Counts.add (buckets : List num.V) (seconds : num.V) (counts : Counts num) : Counts num where
  buckets := List.zipWith (fun bound n => if num.le seconds bound then num.add n num.one else n) buckets counts.buckets
  count := num.add counts.count num.one
  sum := num.add counts.sum seconds

/-- `observe`. -/
def MetricsService.observe (name help : List Char) (seconds : num.V) (labels : Labels) (m : MetricsService num) :
    MetricsService num :=
  { m with
    histograms := Tally.upsert name (fun found =>
      let histogram := found.getD ⟨help, latencyBuckets num, []⟩
      { histogram with
        series := Tally.upsert (serialiseLabels C labels) (fun counts =>
          (counts.getD (.fresh histogram.buckets)).add histogram.buckets seconds) histogram.series }) m.histograms }

/-! ## Rendering -/

/-- The lines of a counter or a gauge. -/
def Counter.render (kind : String) (name : List Char) (counter : Counter num) : List (List Char) :=
  ("# HELP ".toList ++ name ++ ' ' :: counter.help) :: ("# TYPE ".toList ++ name ++ ' ' :: kind.toList) ::
    counter.values.map fun (labels, value) => name ++ labels ++ ' ' :: num.text value

/-- The labels of a bucket. -/
def bucketLabels (labels bound : List Char) : List Char :=
  let inner := if labels = [] then [] else (labels.drop 1).dropLast
  if inner ≠ [] then '{' :: inner ++ ",le=\"".toList ++ bound ++ ['"', '}']
  else '{' :: "le=\"".toList ++ bound ++ ['"', '}']

/-- The lines of a series. -/
def Counts.render (name labels : List Char) (buckets : List num.V) (counts : Counts num) : List (List Char) :=
  List.zipWith (fun bound n => name ++ "_bucket".toList ++ bucketLabels labels (num.text bound) ++ ' ' :: num.text n)
      buckets counts.buckets ++
    [name ++ "_bucket".toList ++ bucketLabels labels "+Inf".toList ++ ' ' :: num.text counts.count,
      name ++ "_count".toList ++ labels ++ ' ' :: num.text counts.count,
      name ++ "_sum".toList ++ labels ++ ' ' :: num.text counts.sum]

/-- The lines of a histogram. -/
def Histogram.render (name : List Char) (histogram : Histogram num) : List (List Char) :=
  ("# HELP ".toList ++ name ++ ' ' :: histogram.help) :: ("# TYPE ".toList ++ name ++ " histogram".toList) ::
    histogram.series.flatMap fun (labels, counts) => counts.render name labels histogram.buckets

/-- `render`, so many whole seconds after the start. -/
def MetricsService.render (uptime : ℕ) (m : MetricsService num) : List Char :=
  ['\n'].intercalate
    (["# HELP netlink_uptime_seconds Seconds since this instance started.".toList,
        "# TYPE netlink_uptime_seconds gauge".toList, "netlink_uptime_seconds ".toList ++ Nat.toDigits 10 uptime] ++
      m.counters.flatMap (fun (name, counter) => counter.render "counter" name) ++
      m.gauges.flatMap (fun (name, gauge) => gauge.render "gauge" name) ++
      m.histograms.flatMap fun (name, histogram) => histogram.render name) ++ ['\n']

/-! ## Runs -/

/-- What a metric is called, and the labels of an event. Names are names, and a help text is on one line. -/
structure Metric where
  name : List Char
  help : List Char
  labels : Labels
  isName : IsName name
  oneLine : '\n' ∉ help

/-- What the service is told. -/
inductive Event (num : Numbers) where
  | increment (metric : Metric) (amount : num.V)
  | setGauge (metric : Metric) (value : num.V)
  | observe (metric : Metric) (seconds : num.V)

/-- What an event does. -/
def MetricsService.step (m : MetricsService num) : Event num → MetricsService num
  | .increment metric amount => m.increment C metric.name metric.help metric.labels amount
  | .setGauge metric value => m.setGauge C metric.name metric.help value metric.labels
  | .observe metric seconds => m.observe C metric.name metric.help seconds metric.labels

/-- The service after events. -/
def MetricsService.run (events : List (Event num)) : MetricsService num := events.foldl (·.step C) ⟨[], [], []⟩

/-- The increments among events. -/
def increments (events : List (Event num)) : List (Metric × num.V) :=
  events.filterMap fun | .increment metric amount => some (metric, amount) | _ => none

/-- The values that gauges were set to. -/
def settings (events : List (Event num)) : List (Metric × num.V) :=
  events.filterMap fun | .setGauge metric value => some (metric, value) | _ => none

/-- The observations among events. -/
def observations (events : List (Event num)) : List (Metric × num.V) :=
  events.filterMap fun | .observe metric seconds => some (metric, seconds) | _ => none

/-- The values of one series: of a name, and the same labels in any order. -/
def ofSeries (name : List Char) (labels : Labels) (told : List (Metric × num.V)) : List num.V :=
  (told.filter fun e => e.1.name = name ∧ e.1.labels.entries.Perm labels.entries).map Prod.snd

/-- What values add up to. -/
def total (values : List num.V) : num.V := values.foldl num.add num.zero

/-- What counting so many comes to. -/
def counted (n : ℕ) : num.V := total (List.replicate n num.one)

/-- The samples of a series of observations. -/
inductive Observed (name : List Char) (labels : Labels) (seconds : List num.V) : Sample → Prop where
  | bucket (bound : num.V) (h : bound ∈ latencyBuckets num) : Observed name labels seconds
    ⟨name ++ "_bucket".toList, labels.sorted C ++ [("le".toList, num.text bound)],
      num.text (counted (seconds.countP (num.le · bound)))⟩
  | infinite : Observed name labels seconds ⟨name ++ "_bucket".toList,
      labels.sorted C ++ [("le".toList, "+Inf".toList)], num.text (counted seconds.length)⟩
  | count : Observed name labels seconds
    ⟨name ++ "_count".toList, labels.sorted C, num.text (counted seconds.length)⟩
  | sum : Observed name labels seconds ⟨name ++ "_sum".toList, labels.sorted C, num.text (total seconds)⟩

/-- The samples that a scraper is to read after events. -/
inductive Reports (events : List (Event num)) (uptime : ℕ) : Sample → Prop where
  | uptime : Reports events uptime ⟨"netlink_uptime_seconds".toList, [], Nat.toDigits 10 uptime⟩
  | counter (name : List Char) (labels : Labels) (h : ofSeries name labels (increments events) ≠ []) :
    Reports events uptime
      ⟨name, labels.sorted C, num.text (total (ofSeries name labels (increments events)))⟩
  | gauge (name : List Char) (labels : Labels) (value : num.V)
      (h : (ofSeries name labels (settings events)).getLast? = some value) :
    Reports events uptime ⟨name, labels.sorted C, num.text value⟩
  | histogram (name : List Char) (labels : Labels) (h : ofSeries name labels (observations events) ≠ []) (s : Sample)
      (hs : Observed C name labels (ofSeries name labels (observations events)) s) : Reports events uptime s

/-! ## Labels -/

variable {C} {labels labels' : Labels}

/-- Three replacements, one after the other, are one pass. -/
theorem escapeLabel_eq (value : List Char) : escapeLabel value = value.flatMap Exposition.escape := by
  simp only [escapeLabel, replaceAll, List.flatMap_assoc]
  refine List.flatMap_congr fun c _ => ?_
  unfold Exposition.escape
  by_cases hslash : c = '\\'
  · subst hslash
    rfl
  · by_cases hquote : c = '"'
    · subst hquote
      rfl
    · by_cases hline : c = '\n'
      · subst hline
        rfl
      · simp [hslash, hquote, hline]

theorem sorted_eq_nil : labels.sorted C = [] ↔ labels.entries = [] := by
  rw [Labels.sorted, ← List.length_eq_zero_iff, List.length_mergeSort, List.length_eq_zero_iff]

/-- The text of labels is that of a sample. -/
theorem serialiseLabels_eq (C : Collation) (labels : Labels) :
    serialiseLabels C labels = Exposition.printLabels (labels.sorted C) := by
  rw [serialiseLabels, Exposition.printLabels]
  simp only [sorted_eq_nil, escapeLabel_eq]
  rfl

theorem names_sorted (C : Collation) (labels : Labels) : ∀ entry ∈ labels.sorted C, IsName entry.1 :=
  fun entry h => labels.names entry ((List.mergeSort_perm _ _).mem_iff.mp h)

/-- Labels are sorted alike when they are the same. -/
theorem sorted_eq_iff : labels.sorted C = labels'.sorted C ↔ labels.entries.Perm labels'.entries := by
  constructor
  · intro h
    exact ((List.mergeSort_perm _ _).symm.trans (List.Perm.of_eq h)).trans (List.mergeSort_perm _ _)
  · intro h
    have hperm := ((List.mergeSort_perm labels.entries fun a b => C.le a.1 b.1).trans h).trans
      (List.mergeSort_perm labels'.entries fun a b => C.le a.1 b.1).symm
    have htrans : ∀ a b c : List Char × List Char, C.le a.1 b.1 → C.le b.1 c.1 → C.le a.1 c.1 :=
      fun a b c => C.trans a.1 b.1 c.1
    have htotal : ∀ a b : List Char × List Char, C.le a.1 b.1 || C.le b.1 a.1 := fun a b => C.total a.1 b.1
    refine hperm.eq_of_pairwise (fun a b ha hb hle hle' => ?_) (List.pairwise_mergeSort htrans htotal _)
      (List.pairwise_mergeSort htrans htotal _)
    have hname := C.antisymm a.1 b.1 (names_sorted C labels a ha) (names_sorted C labels' b hb) hle hle'
    have hmem : b ∈ labels.entries := h.mem_iff.mpr ((List.mergeSort_perm _ _).mem_iff.mp hb)
    exact List.inj_on_of_nodup_map labels.nodup ((List.mergeSort_perm _ _).mem_iff.mp ha) hmem hname

/-- **The text of labels is the same exactly when the labels are.** -/
theorem serialiseLabels_eq_iff :
    serialiseLabels C labels = serialiseLabels C labels' ↔ labels.entries.Perm labels'.entries := by
  rw [serialiseLabels_eq, serialiseLabels_eq, ← sorted_eq_iff (C := C)]
  exact ⟨Exposition.printLabels_inj (names_sorted C labels) (names_sorted C labels'), congrArg _⟩

theorem escape_of_plain {text : List Char} (h : ∀ c ∈ text, c ≠ '"' ∧ c ≠ '\\' ∧ c ≠ '\n') :
    text.flatMap Exposition.escape = text := by
  have hletter : ∀ c ∈ text, Exposition.escape c = [c] := by
    intro c hc
    obtain ⟨hquote, hslash, hline⟩ := h c hc
    rw [Exposition.escape, if_neg hslash, if_neg hquote, if_neg hline]
  rw [List.flatMap_congr hletter]
  exact List.flatMap_singleton' _

theorem bucketLabels_braces {inner : List Char} (h : inner ≠ []) (bound : List Char) :
    bucketLabels ('{' :: inner ++ ['}']) bound = '{' :: inner ++ ",le=\"".toList ++ bound ++ ['"', '}'] := by
  simp [bucketLabels, h]

/-- The bound of a bucket is one more label. -/
theorem bucketLabels_eq (labels : Labels) {bound : List Char} (h : ∀ c ∈ bound, c ≠ '"' ∧ c ≠ '\\' ∧ c ≠ '\n') :
    bucketLabels (serialiseLabels C labels) bound =
      Exposition.printLabels (labels.sorted C ++ [("le".toList, bound)]) := by
  have hlabel : Exposition.printLabel ("le".toList, bound) = "le=\"".toList ++ bound ++ ['"'] := by
    rw [Exposition.printLabel, escape_of_plain h]
    rfl
  rw [serialiseLabels_eq]
  by_cases hnone : labels.sorted C = []
  · rw [hnone, List.nil_append, Exposition.printLabels, Exposition.printLabels, if_pos rfl,
      if_neg (List.cons_ne_nil _ _), List.map_singleton, List.intercalate_singleton, hlabel]
    simp [bucketLabels]
  · obtain ⟨label, rest, hsorted⟩ := List.exists_cons_of_ne_nil hnone
    have hsome : [','].intercalate ((labels.sorted C).map Exposition.printLabel) ≠ [] := by
      intro hnil
      have hlength := Exposition.length_le_intercalate (labels.sorted C)
      rw [hnil, hsorted] at hlength
      exact absurd hlength (by simp)
    have hmap : (labels.sorted C).map Exposition.printLabel ≠ [] := by
      rw [hsorted]
      exact List.cons_ne_nil _ _
    rw [Exposition.printLabels, Exposition.printLabels, if_neg hnone, if_neg (by simp), bucketLabels_braces hsome,
      List.map_append, Delimited.intercalate_append hmap, List.map_singleton, hlabel]
    simp

/-! ## What the service keeps -/

variable {events : List (Event num)}

theorem run_concat (events : List (Event num)) (e : Event num) :
    MetricsService.run C (events ++ [e]) = (MetricsService.run C events).step C e := by
  simp [MetricsService.run]

/-- How an increment changes its counter. -/
def incremented (C : Collation) (e : Metric × num.V) (counter : Counter num) : Counter num :=
  counter.put (serialiseLabels C e.1.labels) fun value => num.add (value.getD num.zero) e.2

/-- How a gauge is set. -/
def set (C : Collation) (e : Metric × num.V) (gauge : Counter num) : Counter num :=
  gauge.put (serialiseLabels C e.1.labels) fun _ => e.2

/-- How an observation changes its histogram. -/
def observed (C : Collation) (e : Metric × num.V) (histogram : Histogram num) : Histogram num :=
  { histogram with
    series := Tally.upsert (serialiseLabels C e.1.labels) (fun counts =>
      (counts.getD (.fresh histogram.buckets)).add histogram.buckets e.2) histogram.series }

/-- **The service is three tables** of what it was told. -/
theorem run_eq (C : Collation) (events : List (Event num)) : MetricsService.run C events =
    { counters := Tally.tally (·.1.name) (fun e found => incremented C e (found.getD ⟨e.1.help, []⟩)) (increments events)
      gauges := Tally.tally (·.1.name) (fun e found => set C e (found.getD ⟨e.1.help, []⟩)) (settings events)
      histograms := Tally.tally (·.1.name)
        (fun e found => observed C e (found.getD ⟨e.1.help, latencyBuckets num, []⟩)) (observations events) } := by
  induction events using List.reverseRecOn with
  | nil => rfl
  | append_singleton events e ih =>
    rw [run_concat, ih]
    cases e <;> simp [increments, settings, observations, MetricsService.step] <;> rfl

theorem ofSeries_eq (C : Collation) (name : List Char) (labels : Labels) (told : List (Metric × num.V)) :
    ((told.filter (·.1.name = name)).filter
      (serialiseLabels C ·.1.labels = serialiseLabels C labels)).map Prod.snd = ofSeries name labels told := by
  rw [ofSeries, List.filter_filter]
  congr 1
  refine List.filter_congr fun e _ => ?_
  simp only [serialiseLabels_eq_iff, Bool.decide_and, Bool.and_comm]

theorem ofSeries_eq_nil (C : Collation) (name : List Char) (labels : Labels) (told : List (Metric × num.V)) :
    (told.filter (·.1.name = name)).filter (serialiseLabels C ·.1.labels = serialiseLabels C labels) = [] ↔
      ofSeries name labels told = [] := by
  rw [← ofSeries_eq C, List.map_eq_nil_iff]

/-- What something was told of is a name. -/
theorem isName_of_filter {name : List Char} {told : List (Metric × num.V)}
    (h : told.filter (·.1.name = name) ≠ []) : IsName name := by
  obtain ⟨e, he⟩ := List.exists_mem_of_ne_nil _ h
  have hname : e.1.name = name := by simpa using (List.mem_filter.mp he).2
  exact hname ▸ e.1.isName

theorem entry_total (told : List (Metric × num.V)) :
    Tally.entry (fun e value => num.add (value.getD num.zero) e.2) told =
      if told = [] then none else some (total (told.map Prod.snd)) := by
  induction told using List.reverseRecOn with
  | nil => rfl
  | append_singleton told e ih =>
    rw [Tally.entry_concat, ih]
    by_cases h : told = []
    · subst h
      rfl
    · simp [h, total]

theorem entry_last (told : List (Metric × num.V)) :
    Tally.entry (fun e _ => e.2) told = (told.map Prod.snd).getLast? := by
  induction told using List.reverseRecOn with
  | nil => rfl
  | append_singleton told e ih => simp

/-- What a series of observations holds. -/
def Counts.of (buckets seconds : List num.V) : Counts num where
  buckets := buckets.map fun bound => counted (seconds.countP (num.le · bound))
  count := counted seconds.length
  sum := total seconds

theorem counted_succ (n : ℕ) : @counted num (n + 1) = num.add (counted n) num.one := by
  simp [counted, total, List.replicate_succ']

theorem entry_counts (buckets : List num.V) (told : List (Metric × num.V)) :
    Tally.entry (fun e counts => (counts.getD (Counts.fresh buckets)).add buckets e.2) told =
      if told = [] then none else some (Counts.of buckets (told.map Prod.snd)) := by
  have hfresh : Counts.fresh buckets = Counts.of buckets [] := by
    simp [Counts.fresh, Counts.of, counted, total]
  induction told using List.reverseRecOn with
  | nil => rfl
  | append_singleton told e ih =>
    have hadd : ∀ seconds : List num.V, (Counts.of buckets seconds).add buckets e.2 =
        Counts.of buckets (seconds ++ [e.2]) := by
      intro seconds
      have hbuckets : List.zipWith (fun bound n => if num.le e.2 bound then num.add n num.one else n) buckets
          (buckets.map fun bound => counted (seconds.countP (num.le · bound))) =
            buckets.map fun bound => counted ((seconds ++ [e.2]).countP (num.le · bound)) := by
        rw [List.zipWith_map_right, List.zipWith_self]
        refine List.map_congr_left fun bound _ => ?_
        rw [List.countP_append, List.countP_singleton]
        split
        · rw [counted_succ]
        · rw [Nat.add_zero]
      simp only [Counts.add, Counts.of, hbuckets, List.length_append, List.length_singleton, counted_succ, total,
        List.foldl_append, List.foldl_cons, List.foldl_nil]
    rw [Tally.entry_concat, ih]
    by_cases h : told = []
    · subst h
      rw [if_pos rfl, Option.getD_none, hfresh, hadd]
      rfl
    · rw [if_neg h, Option.getD_some, hadd, if_neg (by simp), List.map_append]
      rfl

/-! ## What is rendered -/

/-- The lines of a counter or a gauge are read as its values. -/
theorem renders_counter (kind : String) (hkind : '\n' ∉ kind.toList) {name : List Char} (hname : IsName name)
    {counter : Counter num} (hhelp : '\n' ∉ counter.help)
    (hkeys : ∀ entry ∈ counter.values, ∃ labels, entry.1 = serialiseLabels C labels) :
    Exposition.Renders (counter.render kind name) fun s => ∃ labels value,
      (serialiseLabels C labels, value) ∈ counter.values ∧ s = ⟨name, labels.sorted C, num.text value⟩ := by
  have hline : ∀ entry ∈ counter.values, Exposition.Renders [name ++ entry.1 ++ ' ' :: num.text entry.2] fun s =>
      ∃ labels, entry.1 = serialiseLabels C labels ∧ s = ⟨name, labels.sorted C, num.text entry.2⟩ := by
    intro entry hentry
    obtain ⟨labels, hlabels⟩ := hkeys entry hentry
    have hreadable : Sample.Readable ⟨name, labels.sorted C, num.text entry.2⟩ :=
      ⟨hname, names_sorted C labels, fun hmem => (num.plain _ _ hmem).2.2 rfl⟩
    have hprint : name ++ entry.1 ++ ' ' :: num.text entry.2 =
        (Line.sample ⟨name, labels.sorted C, num.text entry.2⟩).print := by
      rw [hlabels, serialiseLabels_eq]
      rfl
    rw [hprint]
    refine (Exposition.renders_sample hreadable).congr fun s => ?_
    constructor
    · rintro rfl
      exact ⟨labels, hlabels, rfl⟩
    · rintro ⟨labels', hlabels', rfl⟩
      rw [sorted_eq_iff.mpr (serialiseLabels_eq_iff.mp (hlabels.symm.trans hlabels'))]
  have hlines := Exposition.Renders.flatMap hline
  have hhead : '\n' ∉ " HELP ".toList ++ name ++ ' ' :: counter.help := by
    simp [Exposition.newline_notMem_name hname, hhelp]
  have htype : '\n' ∉ " TYPE ".toList ++ name ++ ' ' :: kind.toList := by
    simp [Exposition.newline_notMem_name hname, hkind]
  have htexts : counter.render kind name = ['#' :: (" HELP ".toList ++ name ++ ' ' :: counter.help)] ++
      (['#' :: (" TYPE ".toList ++ name ++ ' ' :: kind.toList)] ++
        counter.values.flatMap fun entry => [name ++ entry.1 ++ ' ' :: num.text entry.2]) := by
    rw [← List.map_eq_flatMap]
    rfl
  rw [htexts]
  refine ((Exposition.renders_comment hhead).append ((Exposition.renders_comment htype).append hlines)).congr
    fun s => ?_
  simp only [false_or]
  constructor
  · rintro ⟨⟨key, value⟩, hentry, labels, rfl, rfl⟩
    exact ⟨labels, value, hentry, rfl⟩
  · rintro ⟨labels, value, hentry, rfl⟩
    exact ⟨_, hentry, labels, rfl, rfl⟩

/-- The lines of a series are read as its buckets, its count and its sum. -/
theorem renders_counts {name : List Char} (hname : IsName name) (labels : Labels) (seconds : List num.V) :
    Exposition.Renders ((Counts.of (latencyBuckets num) seconds).render name (serialiseLabels C labels)
      (latencyBuckets num)) (Observed C name labels seconds) := by
  have hsuffix : ∀ suffix : List Char, (∀ c ∈ suffix, Exposition.isNameChar c) → IsName (name ++ suffix) := by
    intro suffix h
    refine ⟨by simp [hname.1], fun c hc => ?_⟩
    exact (List.mem_append.mp hc).elim (hname.2 c) (h c)
  have hvalue : ∀ v, '\n' ∉ num.text v := fun v hmem => (num.plain v _ hmem).2.2 rfl
  have hle : IsName "le".toList := ⟨by decide, List.all_eq_true.mp (by decide)⟩
  -- A bucket has one more label.
  have hbucket : ∀ bound : List Char, (∀ c ∈ bound, c ≠ '"' ∧ c ≠ '\\' ∧ c ≠ '\n') → ∀ v,
      Exposition.Renders [name ++ "_bucket".toList ++ bucketLabels (serialiseLabels C labels) bound ++ ' ' :: num.text v]
        (· = ⟨name ++ "_bucket".toList, labels.sorted C ++ [("le".toList, bound)], num.text v⟩) := by
    intro bound hbound v
    have hreadable : Sample.Readable
        ⟨name ++ "_bucket".toList, labels.sorted C ++ [("le".toList, bound)], num.text v⟩ := by
      refine ⟨hsuffix _ (List.all_eq_true.mp (by decide)), fun label hlabel => ?_, hvalue v⟩
      rcases List.mem_append.mp hlabel with hlabel | hlabel
      · exact names_sorted C labels label hlabel
      · rw [List.mem_singleton.mp hlabel]
        exact hle
    rw [bucketLabels_eq labels hbound]
    exact Exposition.renders_sample hreadable
  have hplain : ∀ suffix : List Char, (∀ c ∈ suffix, Exposition.isNameChar c) → ∀ v,
      Exposition.Renders [name ++ suffix ++ serialiseLabels C labels ++ ' ' :: num.text v]
        (· = ⟨name ++ suffix, labels.sorted C, num.text v⟩) := by
    intro suffix h v
    have hreadable : Sample.Readable ⟨name ++ suffix, labels.sorted C, num.text v⟩ :=
      ⟨hsuffix _ h, names_sorted C labels, hvalue v⟩
    rw [serialiseLabels_eq]
    exact Exposition.renders_sample hreadable
  have hbuckets := Exposition.Renders.flatMap fun bound (_ : bound ∈ latencyBuckets num) =>
    hbucket (num.text bound) (num.plain bound) (counted (seconds.countP (num.le · bound)))
  have hinfinite := hbucket "+Inf".toList (List.all_iff_forall_prop.mp (by decide)) (counted seconds.length)
  have hcount := hplain "_count".toList (List.all_eq_true.mp (by decide)) (counted seconds.length)
  have hsum := hplain "_sum".toList (List.all_eq_true.mp (by decide)) (total seconds)
  have htexts : (Counts.of (latencyBuckets num) seconds).render name (serialiseLabels C labels) (latencyBuckets num) =
      ((latencyBuckets num).flatMap fun bound => [name ++ "_bucket".toList ++
          bucketLabels (serialiseLabels C labels) (num.text bound) ++
            ' ' :: num.text (counted (seconds.countP (num.le · bound)))]) ++
        ([name ++ "_bucket".toList ++ bucketLabels (serialiseLabels C labels) "+Inf".toList ++
            ' ' :: num.text (counted seconds.length)] ++
          ([name ++ "_count".toList ++ serialiseLabels C labels ++ ' ' :: num.text (counted seconds.length)] ++
            [name ++ "_sum".toList ++ serialiseLabels C labels ++ ' ' :: num.text (total seconds)])) := by
    rw [← List.map_eq_flatMap, Counts.render, Counts.of, List.zipWith_map_right, List.zipWith_self]
    rfl
  rw [htexts]
  refine (hbuckets.append (hinfinite.append (hcount.append hsum))).congr fun s => ?_
  constructor
  · rintro (⟨bound, hbound, rfl⟩ | rfl | rfl | rfl)
    · exact .bucket bound hbound
    · exact .infinite
    · exact .count
    · exact .sum
  · rintro (⟨bound, hbound⟩ | _ | _ | _)
    · exact .inl ⟨bound, hbound, rfl⟩
    · exact .inr (.inl rfl)
    · exact .inr (.inr (.inl rfl))
    · exact .inr (.inr (.inr rfl))

theorem observed_congr {name : List Char} (h : labels.entries.Perm labels'.entries) {seconds : List num.V} {s : Sample}
    (hs : Observed C name labels seconds s) : Observed C name labels' seconds s := by
  have hsorted := (sorted_eq_iff (C := C)).mpr h
  cases hs with
  | bucket bound hbound => rw [hsorted]; exact .bucket bound hbound
  | infinite => rw [hsorted]; exact .infinite
  | count => rw [hsorted]; exact .count
  | sum => rw [hsorted]; exact .sum

/-- The lines of a histogram are read as its series. -/
theorem renders_histogram {name : List Char} (hname : IsName name) {histogram : Histogram num}
    (hhelp : '\n' ∉ histogram.help) (hbuckets : histogram.buckets = latencyBuckets num)
    {seconds : Labels → List num.V} (hsame : ∀ labels labels', labels.entries.Perm labels'.entries →
      seconds labels = seconds labels') {P : Labels → Prop}
    (hseries : ∀ entry, entry ∈ histogram.series ↔
      ∃ labels, P labels ∧ entry = (serialiseLabels C labels, Counts.of (latencyBuckets num) (seconds labels))) :
    Exposition.Renders (histogram.render name) fun s =>
      ∃ labels, P labels ∧ Observed C name labels (seconds labels) s := by
  have hline : ∀ entry ∈ histogram.series, Exposition.Renders (entry.2.render name entry.1 histogram.buckets) fun s =>
      ∃ labels, P labels ∧ entry.1 = serialiseLabels C labels ∧ Observed C name labels (seconds labels) s := by
    intro entry hentry
    obtain ⟨labels, hP, rfl⟩ := (hseries entry).mp hentry
    rw [hbuckets]
    refine (renders_counts hname labels (seconds labels)).congr fun s => ?_
    constructor
    · exact fun hs => ⟨labels, hP, rfl, hs⟩
    · rintro ⟨labels', -, hkey, hs⟩
      have hperm := serialiseLabels_eq_iff.mp hkey.symm
      rw [← hsame labels' labels hperm]
      exact observed_congr hperm hs
  have hhead : '\n' ∉ " HELP ".toList ++ name ++ ' ' :: histogram.help := by
    simp [Exposition.newline_notMem_name hname, hhelp]
  have htype : '\n' ∉ " TYPE ".toList ++ name ++ " histogram".toList := by
    simp [Exposition.newline_notMem_name hname]
  have htexts : histogram.render name = ['#' :: (" HELP ".toList ++ name ++ ' ' :: histogram.help)] ++
      (['#' :: (" TYPE ".toList ++ name ++ " histogram".toList)] ++
        histogram.series.flatMap fun entry => entry.2.render name entry.1 histogram.buckets) := rfl
  rw [htexts]
  refine ((Exposition.renders_comment hhead).append ((Exposition.renders_comment htype).append
    (Exposition.Renders.flatMap hline))).congr fun s => ?_
  simp only [false_or]
  constructor
  · rintro ⟨entry, -, labels, hP, -, hs⟩
    exact ⟨labels, hP, hs⟩
  · rintro ⟨labels, hP, hs⟩
    exact ⟨_, (hseries _).mpr ⟨labels, hP, rfl⟩, labels, hP, rfl, hs⟩

/-! ## What is scraped -/

section Families

variable {σ γ : Type} {start : Metric × num.V → σ} {change : Metric × num.V → σ → σ} {part : σ → List (List Char × γ)}
  {putOf : Metric × num.V → Option γ → γ} {R : σ → Prop} {told : List (Metric × num.V)} {name : List Char} {s : σ}

variable (change part R) in
/-- A family of series is told of all that has its name. -/
theorem mem_family (hstart : ∀ e, R (start e) ∧ part (start e) = [])
    (hchange : ∀ e s, R s → R (change e s) ∧
      part (change e s) = Tally.upsert (serialiseLabels C e.1.labels) (putOf e) (part s))
    (h : (name, s) ∈ Tally.tally (·.1.name) (fun e found => change e (found.getD (start e))) told) :
    IsName name ∧ R s ∧ part s = Tally.tally (fun e => serialiseLabels C e.1.labels) putOf
      (told.filter (·.1.name = name)) := by
  have hentry := Tally.mem_tally.mp h
  have hsome : told.filter (·.1.name = name) ≠ [] := by
    intro hnil
    rw [hnil] at hentry
    cases hentry
  exact ⟨isName_of_filter hsome, Tally.tally_of_entry hstart hchange hentry⟩

variable (start change) in
theorem exists_family (h : told.filter (·.1.name = name) ≠ []) :
    ∃ s, (name, s) ∈ Tally.tally (·.1.name) (fun e found => change e (found.getD (start e))) told := by
  obtain ⟨s, hs⟩ := Option.ne_none_iff_exists'.mp (mt Tally.entry_eq_none.mp h)
  exact ⟨s, Tally.mem_tally.mpr hs⟩

/-- The keys of a family are the texts of labels. -/
theorem exists_labels {entry : List Char × γ}
    (h : entry ∈ Tally.tally (fun e => serialiseLabels C e.1.labels) putOf told) :
    ∃ labels, entry.1 = serialiseLabels C labels := by
  have hentry := Tally.mem_tally.mp h
  have hsome : told.filter (serialiseLabels C ·.1.labels = entry.1) ≠ [] := by
    intro hnil
    rw [hnil] at hentry
    cases hentry
  obtain ⟨e, he⟩ := List.exists_mem_of_ne_nil _ hsome
  exact ⟨e.1.labels, (by simpa using (List.mem_filter.mp he).2 : _ = _).symm⟩

theorem filter_ne_nil {labels : Labels} (h : ofSeries name labels told ≠ []) :
    told.filter (·.1.name = name) ≠ [] := by
  obtain ⟨v, hv⟩ := List.exists_mem_of_ne_nil _ h
  obtain ⟨e, he, -⟩ := List.mem_map.mp hv
  obtain ⟨hmem, hmatch⟩ := List.mem_filter.mp he
  exact List.ne_nil_of_mem (List.mem_filter.mpr ⟨hmem, by simpa using (by simpa using hmatch : _ ∧ _).1⟩)

end Families

variable (C)

/-- The lines of the counters. -/
theorem renders_counters (events : List (Event num)) :
    Exposition.Renders ((MetricsService.run C events).counters.flatMap fun (name, counter) => counter.render "counter" name)
      fun s => ∃ name labels, ofSeries name labels (increments events) ≠ [] ∧
        s = ⟨name, labels.sorted C, num.text (total (ofSeries name labels (increments events)))⟩ := by
  have hkept : ∀ name counter, (name, counter) ∈ (MetricsService.run C events).counters →
      IsName name ∧ '\n' ∉ counter.help ∧ counter.values = Tally.tally (fun e => serialiseLabels C e.1.labels)
        (fun e value => num.add (value.getD num.zero) e.2) ((increments events).filter (·.1.name = name)) := by
    intro name counter h
    rw [run_eq] at h
    exact mem_family (incremented C) Counter.values (fun counter => '\n' ∉ counter.help)
      (fun e => ⟨e.1.oneLine, rfl⟩) (fun e counter hhelp => ⟨hhelp, rfl⟩) h
  have hvalue : ∀ name counter, (name, counter) ∈ (MetricsService.run C events).counters → ∀ labels value,
      (serialiseLabels C labels, value) ∈ counter.values ↔ ofSeries name labels (increments events) ≠ [] ∧
        value = total (ofSeries name labels (increments events)) := by
    intro name counter h labels value
    rw [(hkept name counter h).2.2, Tally.mem_tally, entry_total, ofSeries_eq]
    simp only [ofSeries_eq_nil]
    split
    · rename_i hnil
      exact iff_of_false nofun fun h => h.1 hnil
    · rename_i hsome
      exact ⟨fun heq => ⟨hsome, (Option.some.inj heq).symm⟩, fun h => congrArg some h.2.symm⟩
  refine (Exposition.Renders.flatMap fun entry (h : entry ∈ (MetricsService.run C events).counters) =>
    renders_counter (C := C) "counter" (by decide) (hkept entry.1 entry.2 h).1 (hkept entry.1 entry.2 h).2.1
      fun value hvalue => exists_labels ((hkept entry.1 entry.2 h).2.2 ▸ hvalue)).congr fun s => ?_
  constructor
  · rintro ⟨⟨name, counter⟩, hmem, labels, value, hentry, rfl⟩
    obtain ⟨hsome, rfl⟩ := (hvalue name counter hmem labels value).mp hentry
    exact ⟨name, labels, hsome, rfl⟩
  · rintro ⟨name, labels, hsome, rfl⟩
    obtain ⟨counter, hmem⟩ := exists_family (fun e => ⟨e.1.help, []⟩) (incremented C) (filter_ne_nil hsome)
    have hmem : (name, counter) ∈ (MetricsService.run C events).counters := by rw [run_eq]; exact hmem
    exact ⟨(name, counter), hmem, labels, _, (hvalue name counter hmem labels _).mpr ⟨hsome, rfl⟩, rfl⟩

/-- The lines of the gauges. -/
theorem renders_gauges (events : List (Event num)) :
    Exposition.Renders ((MetricsService.run C events).gauges.flatMap fun (name, gauge) => gauge.render "gauge" name)
      fun s => ∃ name labels value, (ofSeries name labels (settings events)).getLast? = some value ∧
        s = ⟨name, labels.sorted C, num.text value⟩ := by
  have hkept : ∀ name gauge, (name, gauge) ∈ (MetricsService.run C events).gauges →
      IsName name ∧ '\n' ∉ gauge.help ∧ gauge.values = Tally.tally (fun e => serialiseLabels C e.1.labels)
        (fun e _ => e.2) ((settings events).filter (·.1.name = name)) := by
    intro name gauge h
    rw [run_eq] at h
    exact mem_family (set C) Counter.values (fun gauge => '\n' ∉ gauge.help)
      (fun e => ⟨e.1.oneLine, rfl⟩) (fun e gauge hhelp => ⟨hhelp, rfl⟩) h
  have hvalue : ∀ name gauge, (name, gauge) ∈ (MetricsService.run C events).gauges → ∀ labels value,
      (serialiseLabels C labels, value) ∈ gauge.values ↔
        (ofSeries name labels (settings events)).getLast? = some value := by
    intro name gauge h labels value
    rw [(hkept name gauge h).2.2, Tally.mem_tally, entry_last, ofSeries_eq]
  refine (Exposition.Renders.flatMap fun entry (h : entry ∈ (MetricsService.run C events).gauges) =>
    renders_counter (C := C) "gauge" (by decide) (hkept entry.1 entry.2 h).1 (hkept entry.1 entry.2 h).2.1
      fun value hvalue => exists_labels ((hkept entry.1 entry.2 h).2.2 ▸ hvalue)).congr fun s => ?_
  constructor
  · rintro ⟨⟨name, gauge⟩, hmem, labels, value, hentry, rfl⟩
    exact ⟨name, labels, value, (hvalue name gauge hmem labels value).mp hentry, rfl⟩
  · rintro ⟨name, labels, value, hlast, rfl⟩
    have hsome : ofSeries name labels (settings events) ≠ [] := by
      intro hnil
      rw [hnil] at hlast
      cases hlast
    obtain ⟨gauge, hmem⟩ := exists_family (fun e => ⟨e.1.help, []⟩) (set C) (filter_ne_nil hsome)
    have hmem : (name, gauge) ∈ (MetricsService.run C events).gauges := by rw [run_eq]; exact hmem
    exact ⟨(name, gauge), hmem, labels, value, (hvalue name gauge hmem labels value).mpr hlast, rfl⟩

theorem ofSeries_congr (name : List Char) (told : List (Metric × num.V)) (labels labels' : Labels)
    (h : labels.entries.Perm labels'.entries) : ofSeries name labels told = ofSeries name labels' told := by
  unfold ofSeries
  congr 1
  refine List.filter_congr fun e _ => ?_
  have hiff : e.1.labels.entries.Perm labels.entries ↔ e.1.labels.entries.Perm labels'.entries :=
    ⟨fun hperm => hperm.trans h, fun hperm => hperm.trans h.symm⟩
  simp only [hiff]

/-- The lines of the histograms. -/
theorem renders_histograms (events : List (Event num)) :
    Exposition.Renders ((MetricsService.run C events).histograms.flatMap fun (name, histogram) => histogram.render name)
      fun s => ∃ name labels, ofSeries name labels (observations events) ≠ [] ∧
        Observed C name labels (ofSeries name labels (observations events)) s := by
  have hkept : ∀ name histogram, (name, histogram) ∈ (MetricsService.run C events).histograms →
      IsName name ∧ ('\n' ∉ histogram.help ∧ histogram.buckets = latencyBuckets num) ∧
        histogram.series = Tally.tally (fun e => serialiseLabels C e.1.labels)
          (fun e counts => (counts.getD (Counts.fresh (latencyBuckets num))).add (latencyBuckets num) e.2)
          ((observations events).filter (·.1.name = name)) := by
    intro name histogram h
    rw [run_eq] at h
    refine mem_family (observed C) Histogram.series
      (fun histogram => '\n' ∉ histogram.help ∧ histogram.buckets = latencyBuckets num)
      (fun e => ⟨⟨e.1.oneLine, rfl⟩, rfl⟩) (fun e histogram hR => ⟨hR, ?_⟩) h
    rw [observed, hR.2]
  have hseries : ∀ name histogram, (name, histogram) ∈ (MetricsService.run C events).histograms → ∀ entry,
      entry ∈ histogram.series ↔ ∃ labels, ofSeries name labels (observations events) ≠ [] ∧
        entry = (serialiseLabels C labels,
          Counts.of (latencyBuckets num) (ofSeries name labels (observations events))) := by
    intro name histogram h entry
    have hvalue : ∀ labels counts, (serialiseLabels C labels, counts) ∈ histogram.series ↔
        ofSeries name labels (observations events) ≠ [] ∧
          counts = Counts.of (latencyBuckets num) (ofSeries name labels (observations events)) := by
      intro labels counts
      rw [(hkept name histogram h).2.2, Tally.mem_tally, entry_counts, ofSeries_eq]
      simp only [ofSeries_eq_nil]
      split
      · rename_i hnil
        exact iff_of_false nofun fun h => h.1 hnil
      · rename_i hsome
        exact ⟨fun heq => ⟨hsome, (Option.some.inj heq).symm⟩, fun h => congrArg some h.2.symm⟩
    constructor
    · intro hentry
      obtain ⟨labels, hkey⟩ := exists_labels ((hkept name histogram h).2.2 ▸ hentry)
      obtain ⟨key, counts⟩ := entry
      obtain rfl : key = serialiseLabels C labels := hkey
      obtain ⟨hsome, rfl⟩ := (hvalue labels counts).mp hentry
      exact ⟨labels, hsome, rfl⟩
    · rintro ⟨labels, hsome, rfl⟩
      exact (hvalue labels _).mpr ⟨hsome, rfl⟩
  refine (Exposition.Renders.flatMap fun entry (h : entry ∈ (MetricsService.run C events).histograms) =>
    renders_histogram (hkept entry.1 entry.2 h).1 (hkept entry.1 entry.2 h).2.1.1 (hkept entry.1 entry.2 h).2.1.2
      (ofSeries_congr entry.1 (observations events)) (hseries entry.1 entry.2 h)).congr fun s => ?_
  constructor
  · rintro ⟨⟨name, histogram⟩, -, labels, hsome, hs⟩
    exact ⟨name, labels, hsome, hs⟩
  · rintro ⟨name, labels, hsome, hs⟩
    obtain ⟨histogram, hmem⟩ := exists_family (fun e => ⟨e.1.help, latencyBuckets num, []⟩)
      (observed C) (filter_ne_nil hsome)
    have hmem : (name, histogram) ∈ (MetricsService.run C events).histograms := by rw [run_eq]; exact hmem
    exact ⟨(name, histogram), hmem, labels, hsome, hs⟩

/-- The line of the uptime, and what stands above it. -/
theorem renders_uptime (uptime : ℕ) : Exposition.Renders
    ["# HELP netlink_uptime_seconds Seconds since this instance started.".toList,
      "# TYPE netlink_uptime_seconds gauge".toList, "netlink_uptime_seconds ".toList ++ Nat.toDigits 10 uptime]
    (· = ⟨"netlink_uptime_seconds".toList, [], Nat.toDigits 10 uptime⟩) := by
  have hdigits : '\n' ∉ Nat.toDigits 10 uptime := by
    intro hmem
    exact absurd (Nat.isDigit_of_mem_toDigits (by decide) (by decide) hmem) (by decide)
  have hhelp : '\n' ∉ " HELP netlink_uptime_seconds Seconds since this instance started.".toList := by decide
  have htype : '\n' ∉ " TYPE netlink_uptime_seconds gauge".toList := by decide
  have hname : IsName "netlink_uptime_seconds".toList := ⟨by decide, List.all_eq_true.mp (by decide)⟩
  have hsample : Sample.Readable ⟨"netlink_uptime_seconds".toList, [], Nat.toDigits 10 uptime⟩ :=
    ⟨hname, by simp, hdigits⟩
  have hlines := (Exposition.renders_comment hhelp).append
    ((Exposition.renders_comment htype).append (Exposition.renders_sample hsample))
  exact hlines.congr fun s => by simp only [false_or]

end Metrics

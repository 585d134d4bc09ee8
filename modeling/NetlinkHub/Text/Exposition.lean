import NetlinkHub.Text.Delimited
import Mathlib.Data.List.TakeWhile

/-! # The text exposition format

Metrics as a scraper reads them: a sample a line, with labels whose values are quoted. Whatever the values of
the labels are, what is written is read back (`scrape_print`). -/

namespace Exposition

/-- A sample. Its value is kept as it is written. -/
structure Sample where
  name : List Char
  labels : List (List Char × List Char)
  value : List Char
  deriving DecidableEq

/-- A line. -/
inductive Line where
  | comment (text : List Char)
  | sample (s : Sample)

/-! ## Writing -/

/-- How a letter of a label's value is written. -/
def escape (c : Char) : List Char :=
  if c = '\\' then ['\\', '\\'] else if c = '"' then ['\\', '"'] else if c = '\n' then ['\\', 'n'] else [c]

/-- A label. -/
def printLabel (label : List Char × List Char) : List Char :=
  label.1 ++ '=' :: '"' :: label.2.flatMap escape ++ ['"']

/-- The labels of a sample; nothing when there are none. -/
def printLabels (labels : List (List Char × List Char)) : List Char :=
  if labels = [] then [] else '{' :: [','].intercalate (labels.map printLabel) ++ ['}']

/-- A line without its end. -/
def Line.print : Line → List Char
  | .comment text => '#' :: text
  | .sample s => s.name ++ printLabels s.labels ++ ' ' :: s.value

/-- Lines, each with its end. -/
def print (lines : List Line) : List Char := ['\n'].intercalate (lines.map Line.print) ++ ['\n']

/-! ## Reading -/

/-- A letter of a name. -/
def isNameChar (c : Char) : Bool := c.isAlphanum ∨ c = '_' ∨ c = ':'

/-- The letter that a letter after a backslash stands for. -/
def unescape (c : Char) : Option Char :=
  if c = '\\' ∨ c = '"' then some c else if c = 'n' then some '\n' else none

/-- The value of a label up to its closing quote, and what follows. -/
def readValue : List Char → Option (List Char × List Char)
  | [] => none
  | '"' :: rest => some ([], rest)
  | '\\' :: c :: rest =>
    (unescape c).bind fun letter => (readValue rest).map fun (value, rest) => (letter :: value, rest)
  | c :: rest => (readValue rest).map fun (value, rest) => (c :: value, rest)

/-- Labels up to the closing brace, and what follows. -/
def readLabels : ℕ → List Char → Option (List (List Char × List Char) × List Char)
  | 0, _ => none
  | fuel + 1, s => match s.dropWhile isNameChar with
    | '=' :: '"' :: rest => (readValue rest).bind fun (value, rest) => match rest with
      | ',' :: rest =>
        (readLabels fuel rest).map fun (labels, rest) => ((s.takeWhile isNameChar, value) :: labels, rest)
      | '}' :: rest => some ([(s.takeWhile isNameChar, value)], rest)
      | _ => none
    | _ => none

/-- A sample from its line. -/
def readSample (s : List Char) : Option Sample :=
  let name := s.takeWhile isNameChar
  if name = [] then none
  else match s.dropWhile isNameChar with
    | ' ' :: value => some ⟨name, [], value⟩
    | '{' :: rest => (readLabels rest.length rest).bind fun (labels, rest) => match rest with
      | ' ' :: value => some ⟨name, labels, value⟩
      | _ => none
    | _ => none

/-- The samples of lines. Comments and empty lines are passed over, and a line that is no sample spoils all. -/
def readLines : List (List Char) → Option (List Sample)
  | [] => some []
  | [] :: lines => readLines lines
  | ('#' :: _) :: lines => readLines lines
  | line :: lines => (readSample line).bind fun s => (readLines lines).map (s :: ·)

/-- What a scraper reads. -/
def scrape (text : List Char) : Option (List Sample) := readLines (text.splitOn '\n')

/-! ## Samples that can be read -/

/-- A name. -/
def IsName (name : List Char) : Prop := name ≠ [] ∧ ∀ c ∈ name, isNameChar c

/-- The names of a sample are names, and its value is on one line. -/
structure Sample.Readable (s : Sample) : Prop where
  name : IsName s.name
  labels : ∀ label ∈ s.labels, IsName label.1
  value : '\n' ∉ s.value

/-- A comment is on one line, and a sample can be read. -/
def Line.Readable : Line → Prop
  | .comment text => '\n' ∉ text
  | .sample s => s.Readable

/-- The samples among lines. -/
def samples (lines : List Line) : List Sample :=
  lines.filterMap fun | .comment _ => none | .sample s => some s

variable {rest : List Char} {name : List Char} {labels : List (List Char × List Char)} {s : Sample}

/-- A letter is read as it was written. -/
theorem readValue_escape (c : Char) (rest : List Char) :
    readValue (escape c ++ rest) = (readValue rest).map fun (value, rest) => (c :: value, rest) := by
  unfold escape
  split
  · rename_i h
    subst h
    rfl
  · rename_i hslash
    split
    · rename_i h
      subst h
      rfl
    · rename_i hquote
      split
      · rename_i h
        subst h
        rfl
      · rw [List.singleton_append, readValue.eq_4 c rest hquote fun _ _ hc => absurd hc hslash]

/-- **A value is read as it was written.** -/
theorem readValue_print (value rest : List Char) :
    readValue (value.flatMap escape ++ '"' :: rest) = some (value, rest) := by
  induction value with
  | nil => rfl
  | cons c value ih => rw [List.flatMap_cons, List.append_assoc, readValue_escape, ih]; rfl

/-- A name goes up to the first letter that is not one of a name. -/
theorem span_name (h : ∀ c ∈ name, isNameChar c) (rest : List Char) {c : Char} (hc : isNameChar c = false) :
    (name ++ c :: rest).takeWhile isNameChar = name ∧ (name ++ c :: rest).dropWhile isNameChar = c :: rest := by
  rw [List.takeWhile_append_of_pos h, List.dropWhile_append_of_pos h]
  simp [hc]

theorem printLabel_append (label : List Char × List Char) (rest : List Char) :
    printLabel label ++ rest = label.1 ++ '=' :: ('"' :: (label.2.flatMap escape ++ '"' :: rest)) := by
  simp [printLabel]

/-- **Labels are read as they were written.** -/
theorem readLabels_print : ∀ (labels : List (List Char × List Char)), labels ≠ [] → (∀ label ∈ labels, IsName label.1) →
    ∀ fuel, labels.length ≤ fuel → ∀ rest,
      readLabels fuel ([','].intercalate (labels.map printLabel) ++ '}' :: rest) = some (labels, rest)
  | [label], _, hnames, fuel + 1, _, rest => by
    obtain ⟨htake, hdrop⟩ := span_name (hnames label List.mem_cons_self).2
      ('"' :: (label.2.flatMap escape ++ '"' :: '}' :: rest)) (c := '=') (by decide)
    rw [List.map_cons, List.map_nil, List.intercalate_singleton, printLabel_append, readLabels, htake, hdrop]
    simp [readValue_print]
  | label :: next :: labels, _, hnames, fuel + 1, hfuel, rest => by
    have hrest := readLabels_print (next :: labels) (List.cons_ne_nil _ _)
      (fun l hl => hnames l (List.mem_cons_of_mem _ hl)) fuel (Nat.le_of_succ_le_succ hfuel) rest
    obtain ⟨htake, hdrop⟩ := span_name (hnames label List.mem_cons_self).2
      ('"' :: (label.2.flatMap escape ++ '"' :: ',' ::
        ([','].intercalate ((next :: labels).map printLabel) ++ '}' :: rest))) (c := '=') (by decide)
    have htext : [','].intercalate ((label :: next :: labels).map printLabel) ++ '}' :: rest = printLabel label ++
        ',' :: ([','].intercalate ((next :: labels).map printLabel) ++ '}' :: rest) := by
      simp [List.intercalate_cons_cons]
    rw [htext, printLabel_append, readLabels, htake, hdrop]
    simp only [readValue_print, Option.bind_some, hrest, Option.map_some]

theorem length_le_intercalate (labels : List (List Char × List Char)) :
    labels.length ≤ ([','].intercalate (labels.map printLabel)).length := by
  induction labels with
  | nil => exact Nat.zero_le _
  | cons label labels ih =>
    cases labels with
    | nil =>
      rw [List.map_singleton, List.intercalate_singleton, printLabel, List.length_append]
      exact Nat.le_add_left 1 _
    | cons next labels =>
      rw [List.map_cons, List.map_cons, List.intercalate_cons_cons]
      simp only [List.map_cons, List.length_append, List.length_cons, List.length_nil] at ih ⊢
      omega

/-- **A sample is read as it was written.** -/
theorem readSample_print (h : s.Readable) : readSample (Line.sample s).print = some s := by
  obtain ⟨name, labels, value⟩ := s
  obtain ⟨⟨hsome, hname⟩, hlabels, -⟩ := h
  by_cases hnone : labels = []
  · subst hnone
    obtain ⟨htake, hdrop⟩ := span_name hname value (c := ' ') (by decide)
    have htext : (Line.sample ⟨name, [], value⟩).print = name ++ ' ' :: value := by simp [Line.print, printLabels]
    rw [htext, readSample, htake, if_neg hsome, hdrop]
    rfl
  · have htext : (Line.sample ⟨name, labels, value⟩).print =
        name ++ '{' :: ([','].intercalate (labels.map printLabel) ++ '}' :: ' ' :: value) := by
      simp [Line.print, printLabels, hnone]
    obtain ⟨htake, hdrop⟩ := span_name hname
      ([','].intercalate (labels.map printLabel) ++ '}' :: ' ' :: value) (c := '{') (by decide)
    have hfuel := length_le_intercalate labels
    rw [htext, readSample, htake, if_neg hsome, hdrop]
    simp only
    rw [readLabels_print labels hnone hlabels _ (by rw [List.length_append]; omega)]
    rfl

/-! ## Texts of many lines -/

theorem newline_notMem_escape (c : Char) : '\n' ∉ escape c := by
  unfold escape
  split
  · decide
  · split
    · decide
    · split
      · decide
      · rename_i h
        simp [Ne.symm h]

theorem newline_notMem_name (h : IsName name) : '\n' ∉ name := fun hmem => absurd (h.2 _ hmem) (by decide)

theorem newline_notMem_print (h : s.Readable) : '\n' ∉ (Line.sample s).print := by
  have hlabel : ∀ label ∈ s.labels, '\n' ∉ printLabel label := by
    intro label hmem
    have hvalue : '\n' ∉ label.2.flatMap escape := by
      rw [List.mem_flatMap]
      rintro ⟨c, -, hc⟩
      exact newline_notMem_escape c hc
    simp [printLabel, newline_notMem_name (h.labels label hmem), hvalue]
  have hlabels : '\n' ∉ printLabels s.labels := by
    unfold printLabels
    split
    · exact List.not_mem_nil
    · intro hmem
      rcases List.mem_append.mp hmem with hmem | hmem
      · rcases List.mem_cons.mp hmem with hmem | hmem
        · exact absurd hmem (by decide)
        · rcases Delimited.mem_of_mem_intercalate hmem with hmem | ⟨field, hfield, hmem⟩
          · exact absurd hmem (by decide)
          · obtain ⟨label, hl, rfl⟩ := List.mem_map.mp hfield
            exact hlabel label hl hmem
      · exact absurd hmem (by decide)
  simp [Line.print, newline_notMem_name h.name, hlabels, h.value]

theorem readLines_cons {c : Char} (hc : c ≠ '#') (letters : List Char) (lines : List (List Char)) :
    readLines ((c :: letters) :: lines) =
      (readSample (c :: letters)).bind fun s => (readLines lines).map (s :: ·) := by
  rw [readLines.eq_4]
  · exact nofun
  · rintro tail heq
    exact hc (List.cons.inj heq).1

/-- Lines are read one after the other. -/
theorem readLines_print {lines : List Line} (h : ∀ line ∈ lines, line.Readable) (rest : List (List Char)) :
    readLines (lines.map Line.print ++ rest) = (readLines rest).map (samples lines ++ ·) := by
  induction lines with
  | nil => simp [samples]
  | cons line lines ih =>
    have hrest := ih fun l hl => h l (List.mem_cons_of_mem _ hl)
    have hline := h line List.mem_cons_self
    cases line with
    | comment text => exact hrest
    | sample s =>
      obtain ⟨c, letters, hname⟩ := List.exists_cons_of_ne_nil hline.name.1
      have hc : c ≠ '#' := by
        rintro rfl
        exact absurd (hline.name.2 '#' (hname ▸ List.mem_cons_self)) (by decide)
      have hprint := readSample_print hline
      obtain ⟨letters', htext⟩ : ∃ letters', (Line.sample s).print = c :: letters' := by
        simp [Line.print, hname]
      rw [htext] at hprint
      rw [List.map_cons, List.cons_append, htext, readLines_cons hc, hprint, hrest]
      cases readLines rest <;> simp [samples]

theorem print_eq (lines : List Line) : ∃ rest, readLines rest = some [] ∧ (∀ line ∈ rest, '\n' ∉ line) ∧ rest ≠ [] ∧
    print lines = ['\n'].intercalate (lines.map Line.print ++ rest) := by
  cases lines with
  | nil => exact ⟨[[], []], rfl, by simp, by simp, rfl⟩
  | cons line lines =>
    refine ⟨[[]], rfl, by simp, by simp, ?_⟩
    rw [Delimited.intercalate_append (by simp), print]
    simp

/-- **What is written is scraped.** -/
theorem scrape_print {lines : List Line} (h : ∀ line ∈ lines, line.Readable) :
    scrape (print lines) = some (samples lines) := by
  obtain ⟨rest, hread, hrest, hsome, htext⟩ := print_eq lines
  have hline : ∀ line ∈ lines.map Line.print ++ rest, '\n' ∉ line := by
    intro text htext
    rcases List.mem_append.mp htext with htext | htext
    · obtain ⟨line, hmem, rfl⟩ := List.mem_map.mp htext
      have hreadable := h line hmem
      cases line with
      | comment text =>
        have hnot : '\n' ∉ text := hreadable
        simpa [Line.print] using hnot
      | sample s => exact newline_notMem_print hreadable
    · exact hrest text htext
  rw [scrape, htext, List.splitOn_intercalate _ hline (by simp [hsome]), readLines_print h, hread]
  simp

/-- **The labels are in their text.** -/
theorem printLabels_inj {labels' : List (List Char × List Char)} (hnames : ∀ label ∈ labels, IsName label.1)
    (hnames' : ∀ label ∈ labels', IsName label.1) (h : printLabels labels = printLabels labels') : labels = labels' := by
  by_cases hnone : labels = []
  · by_cases hnone' : labels' = []
    · rw [hnone, hnone']
    · rw [printLabels, printLabels, if_pos hnone, if_neg hnone'] at h
      cases h
  · by_cases hnone' : labels' = []
    · rw [printLabels, printLabels, if_neg hnone, if_pos hnone'] at h
      cases h
    · rw [printLabels, printLabels, if_neg hnone, if_neg hnone'] at h
      have hread := readLabels_print labels hnone hnames (labels.length + labels'.length) (Nat.le_add_right _ _) []
      have hread' := readLabels_print labels' hnone' hnames' (labels.length + labels'.length) (Nat.le_add_left _ _) []
      have htext : [','].intercalate (labels.map printLabel) ++ ['}'] =
          [','].intercalate (labels'.map printLabel) ++ ['}'] := (List.cons.inj h).2
      rw [htext, hread'] at hread
      exact congrArg Prod.fst (Option.some.inj hread).symm

/-! ## Lines that a program makes -/

/-- The texts are lines whose samples are those with a property. -/
def Renders (texts : List (List Char)) (P : Sample → Prop) : Prop :=
  ∃ lines : List Line, (∀ line ∈ lines, line.Readable) ∧ lines.map Line.print = texts ∧ ∀ s, s ∈ samples lines ↔ P s

variable {texts texts' : List (List Char)} {P P' : Sample → Prop}

theorem renders_nil : Renders [] fun _ => False := ⟨[], by simp, rfl, by simp [samples]⟩

theorem renders_comment {text : List Char} (h : '\n' ∉ text) : Renders ['#' :: text] fun _ => False :=
  ⟨[.comment text], by simpa [Line.Readable] using h, rfl, by simp [samples]⟩

theorem renders_sample (h : s.Readable) : Renders [(Line.sample s).print] (· = s) :=
  ⟨[.sample s], by simpa [Line.Readable] using h, rfl, by simp [samples]⟩

theorem Renders.congr (h : Renders texts P) (hiff : ∀ s, P s ↔ P' s) : Renders texts P' := by
  obtain ⟨lines, hreadable, htexts, hsamples⟩ := h
  exact ⟨lines, hreadable, htexts, fun s => (hsamples s).trans (hiff s)⟩

theorem Renders.append (h : Renders texts P) (h' : Renders texts' P') :
    Renders (texts ++ texts') fun s => P s ∨ P' s := by
  obtain ⟨lines, hreadable, rfl, hsamples⟩ := h
  obtain ⟨lines', hreadable', rfl, hsamples'⟩ := h'
  refine ⟨lines ++ lines', ?_, List.map_append, fun s => ?_⟩
  · intro line hline
    exact (List.mem_append.mp hline).elim (hreadable line) (hreadable' line)
  · show s ∈ samples (lines ++ lines') ↔ P s ∨ P' s
    rw [← hsamples, ← hsamples', samples, List.filterMap_append]
    exact List.mem_append

/-- Lines for each element of a list. -/
theorem Renders.flatMap {β : Type} {list : List β} {f : β → List (List Char)} {Q : β → Sample → Prop}
    (h : ∀ b ∈ list, Renders (f b) (Q b)) : Renders (list.flatMap f) fun s => ∃ b ∈ list, Q b s := by
  induction list with
  | nil => exact renders_nil.congr (by simp)
  | cons b list ih =>
    have hrest := ih fun b' hb' => h b' (List.mem_cons_of_mem _ hb')
    exact ((h b List.mem_cons_self).append hrest).congr (by simp)

/-- **What a program makes is scraped.** -/
theorem Renders.scrape (h : Renders texts P) :
    ∃ list, scrape (['\n'].intercalate texts ++ ['\n']) = some list ∧ ∀ s, s ∈ list ↔ P s := by
  obtain ⟨lines, hreadable, rfl, hsamples⟩ := h
  exact ⟨samples lines, scrape_print hreadable, hsamples⟩

end Exposition

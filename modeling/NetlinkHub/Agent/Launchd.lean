import NetlinkHub.Go.Flag
import NetlinkHub.Go.Time
import NetlinkHub.Text.Plist

/-! # The launchd job

`main` and the macOS service of the agent: `install` writes a property list by hand, from which launchd later starts
the same executable. What it is started with is what was installed (`starts_installed`). -/

namespace Launchd

open Time (Duration)
open Xml (IsText)

/-! ## The command line -/

/-- `Config`, as far as `main` reads it from the command line, and its verbose flag. -/
structure Config where
  apiBaseURL : List Char
  dataDir : List Char
  deviceName : List Char
  heartbeatEvery : Duration
  verbose : Bool
  enrollmentToken : List Char
  wakeHelper : Bool
  deriving DecidableEq, Repr

/-- `knownCommands`. -/
def knownCommands : List (List Char) :=
  ["run", "status", "reset", "enroll", "install", "uninstall", "version"].map String.toList

/-- The loop of `splitCommand`: the command if it was found, and the flags. -/
def splitLoop : Option (List Char) → List (List Char) → Option (List Char) × List (List Char)
  | found, [] => (found, [])
  | found, arg :: args =>
    if found.isNone ∧ arg.head? ≠ some '-' ∧ knownCommands.contains arg then splitLoop (some arg) args
    else
      let (command, flagArgs) := splitLoop found args
      (command, arg :: flagArgs)

/-- `splitCommand`. -/
def splitCommand (args : List (List Char)) : List Char × List (List Char) :=
  match splitLoop none args, args with
  | (some command, flagArgs), _ => (command, flagArgs)
  -- an unrecognised first word is surfaced rather than ignored
  | (none, flagArgs), arg :: args => if arg.head? ≠ some '-' then (arg, args) else ("run".toList, flagArgs)
  | (none, flagArgs), [] => ("run".toList, flagArgs)

/-- The flags of `main`. -/
def flags (parseDuration : List Char → Option Duration) : List (Flag.Spec Config) :=
  [⟨"api".toList, false, fun value cfg => some { cfg with apiBaseURL := value }⟩,
    ⟨"data".toList, false, fun value cfg => some { cfg with dataDir := value }⟩,
    ⟨"name".toList, false, fun value cfg => some { cfg with deviceName := value }⟩,
    ⟨"heartbeat".toList, false, fun value cfg => (parseDuration value).map fun d => { cfg with heartbeatEvery := d }⟩,
    ⟨"v".toList, true, fun value cfg => (Flag.parseBool value).map fun b => { cfg with verbose := b }⟩,
    ⟨"token".toList, false, fun value cfg => some { cfg with enrollmentToken := value }⟩,
    ⟨"wake-helper".toList, true, fun value cfg => (Flag.parseBool value).map fun b => { cfg with wakeHelper := b }⟩]

/-- What `main` takes from its surroundings: `time.ParseDuration`, and the defaults of the first four flags. -/
structure Surroundings where
  parseDuration : List Char → Option Duration
  apiURL : List Char
  dataDir : List Char
  name : List Char
  interval : Duration

/-- The configuration without any flag. -/
def Surroundings.defaults (env : Surroundings) : Config :=
  ⟨env.apiURL, env.dataDir, env.name, env.interval, false, [], false⟩

/-- `main`, up to what it does. -/
def main (env : Surroundings) (args : List (List Char)) : Except Flag.Failure (List Char × Config) :=
  let (command, flagArgs) := splitCommand args
  (Flag.parse (flags env.parseDuration) env.defaults flagArgs).map fun (cfg, _) => (command, cfg)

/-! ## The property list -/

/-- `xmlEscape`. -/
def xmlEscape (value : List Char) : List Char := value.flatMap Xml.escape

/-- The arguments of `buildPlist`, a line each. -/
def argumentLines (executable : List Char) (cfg : Config) : List Char :=
  "    <string>".toList ++ xmlEscape executable ++ "</string>\n".toList ++
    "    <string>run</string>\n".toList ++
    (if cfg.apiBaseURL ≠ [] then
      "    <string>--api</string>\n".toList ++
        "    <string>".toList ++ xmlEscape cfg.apiBaseURL ++ "</string>\n".toList
    else []) ++
    (if cfg.dataDir ≠ [] then
      "    <string>--data</string>\n".toList ++
        "    <string>".toList ++ xmlEscape cfg.dataDir ++ "</string>\n".toList
    else []) ++
    if cfg.wakeHelper then "    <string>--wake-helper</string>\n".toList else []

/-- The lines in front of the arguments. -/
def headLines : List Char :=
  "<?xml version=\"1.0\" encoding=\"UTF-8\"?>\n".toList ++ '<' :: Plist.doctype ++ ">\n".toList ++
    "<plist version=\"1.0\">\n<dict>\n".toList ++
    "  <key>Label</key>\n  <string>com.netlink.agent</string>\n".toList ++
    "  <key>ProgramArguments</key>\n  <array>\n".toList

/-- The lines behind them. -/
def tailLines : List Char :=
  "  </array>\n".toList ++
    "  <key>RunAtLoad</key>\n  <true/>\n".toList ++
    "  <key>KeepAlive</key>\n  <true/>\n".toList ++
    "  <key>ThrottleInterval</key>\n  <integer>10</integer>\n".toList ++
    "  <key>StandardOutPath</key>\n  <string>/var/log/netlink-agent.log</string>\n".toList ++
    "  <key>StandardErrorPath</key>\n  <string>/var/log/netlink-agent.log</string>\n".toList ++
    "</dict>\n</plist>\n".toList

/-- `buildPlist`. -/
def buildPlist (executable : List Char) (cfg : Config) : List Char :=
  headLines ++ argumentLines executable cfg ++ tailLines

/-! ## The job -/

/-- What launchd takes from the property list. -/
structure Job where
  label : List Char
  programArguments : List (List Char)
  runAtLoad : Bool
  keepAlive : Bool
  throttleInterval : ℕ
  deriving DecidableEq, Repr

def asString : Plist → Option (List Char)
  | .string s => some s
  | _ => none

def asBool : Plist → Option Bool
  | .bool b => some b
  | _ => none

def asInteger : Plist → Option ℕ
  | .integer n => some n
  | _ => none

def asStrings : Plist → Option (List (List Char))
  | .array items => items.mapM asString
  | _ => none

/-- The job of a property list. -/
def Job.ofPlist : Plist → Option Job
  | .dict entries => do
    let label ← (entries.lookup "Label".toList).bind asString
    let programArguments ← (entries.lookup "ProgramArguments".toList).bind asStrings
    let runAtLoad ← (entries.lookup "RunAtLoad".toList).bind asBool
    let keepAlive ← (entries.lookup "KeepAlive".toList).bind asBool
    let throttleInterval ← (entries.lookup "ThrottleInterval".toList).bind asInteger
    some ⟨label, programArguments, runAtLoad, keepAlive, throttleInterval⟩
  | _ => none

/-- launchd loads a job. -/
def load (text : List Char) : Option Job := (Plist.read text).bind Job.ofPlist

/-! ## What is loaded is what was written -/

/-- The arguments of the service. -/
def serviceArguments (cfg : Config) : List (List Char) :=
  "run".toList :: ((if cfg.apiBaseURL ≠ [] then ["--api".toList, cfg.apiBaseURL] else []) ++
    (if cfg.dataDir ≠ [] then ["--data".toList, cfg.dataDir] else []) ++
    if cfg.wakeHelper then ["--wake-helper".toList] else [])

/-- The property list of a job. -/
def jobPlist (arguments : List (List Char)) : Plist :=
  .dict [("Label".toList, .string "com.netlink.agent".toList),
    ("ProgramArguments".toList, .array (arguments.map .string)),
    ("RunAtLoad".toList, .bool true),
    ("KeepAlive".toList, .bool true),
    ("ThrottleInterval".toList, .integer 10),
    ("StandardOutPath".toList, .string "/var/log/netlink-agent.log".toList),
    ("StandardErrorPath".toList, .string "/var/log/netlink-agent.log".toList)]

/-- The line of an argument. -/
def argumentLine (arg : List Char) : List Char := "    <string>".toList ++ xmlEscape arg ++ "</string>\n".toList

theorem argumentLines_eq (executable : List Char) (cfg : Config) :
    argumentLines executable cfg = (executable :: serviceArguments cfg).flatMap argumentLine := by
  have hliterals : "    <string>run</string>\n".toList = argumentLine "run".toList ∧
      "    <string>--api</string>\n".toList = argumentLine "--api".toList ∧
      "    <string>--data</string>\n".toList = argumentLine "--data".toList ∧
      "    <string>--wake-helper</string>\n".toList = argumentLine "--wake-helper".toList := by
    unfold argumentLine
    repeat rw [String.toList_ofList]
    exact ⟨rfl, rfl, rfl, rfl⟩
  obtain ⟨hrun, hapi, hdata, hhelper⟩ := hliterals
  have hline (arg : List Char) :
      "    <string>".toList ++ (xmlEscape arg ++ "</string>\n".toList) = argumentLine arg := by
    unfold argumentLine
    exact (List.append_assoc _ _ _).symm
  unfold argumentLines serviceArguments
  simp only [hrun, hapi, hdata, hhelper]
  split <;> split <;> split <;>
    simp only [List.append_assoc, hline, List.flatMap_cons, List.flatMap_nil, List.flatMap_append, List.append_nil,
      List.nil_append]

/-- The line of an argument is its element in the array. -/
theorem argumentLine_eq (arg : List Char) :
    argumentLine arg = List.replicate 4 ' ' ++ (Xml.render (Plist.leaf .string arg) ++ ['\n']) := by
  rw [Plist.render_leaf]
  unfold argumentLine xmlEscape
  repeat rw [String.toList_ofList]
  simp [Plist.Element.name]

theorem render_arguments (arguments : List (List Char)) (rest : List Char) :
    Xml.render (Plist.itemTokens 2 (arguments.map .string)) ++ '\n' :: rest =
      '\n' :: (arguments.flatMap argumentLine ++ rest) := by
  induction arguments with
  | nil => rfl
  | cons arg arguments ih =>
    rw [List.map_cons, Plist.itemTokens, Plist.tokens, Plist.render_line, Plist.render_append, List.flatMap_cons,
      argumentLine_eq]
    simp only [List.cons_append, List.append_assoc, List.nil_append, ih]

set_option maxRecDepth 4096 in
theorem buildPlist_eq (executable : List Char) (cfg : Config) :
    buildPlist executable cfg = Plist.write (jobPlist (executable :: serviceArguments cfg)) := by
  rw [buildPlist, argumentLines_eq]
  generalize executable :: serviceArguments cfg = arguments
  have harguments (rest : List Char) :
      Xml.render (Plist.itemTokens (0 + 1 + 1) (arguments.map .string)) ++ '\n' :: rest =
        '\n' :: (arguments.flatMap argumentLine ++ rest) := render_arguments arguments rest
  unfold headLines tailLines Plist.write jobPlist Plist.document Plist.prologue Plist.epilogue Plist.doctype
  repeat rw [String.toList_ofList]
  simp only [Plist.tokens, Plist.entryTokens, Plist.render_append, Plist.render_tag, Plist.render_line,
    Plist.render_leaf, harguments, List.append_assoc, List.cons_append, List.nil_append, Plist.Element.name]
  rfl

theorem plain_jobPlist {arguments : List (List Char)} (h : ∀ arg ∈ arguments, IsText arg) :
    (jobPlist arguments).Plain := by
  have hitems : Plist.PlainItems (arguments.map .string) := by
    induction arguments with
    | nil => trivial
    | cons arg arguments ih => exact ⟨h arg List.mem_cons_self, ih fun arg harg => h arg (List.mem_cons_of_mem _ harg)⟩
  unfold jobPlist
  repeat rw [String.toList_ofList]
  exact ⟨by decide, by unfold Plist.Plain; decide, by decide, hitems, by decide, trivial, by decide, trivial, by decide,
    trivial, by decide, by unfold Plist.Plain; decide, by decide, by unfold Plist.Plain; decide, trivial⟩

theorem ofPlist_jobPlist (arguments : List (List Char)) :
    Job.ofPlist (jobPlist arguments) = some ⟨"com.netlink.agent".toList, arguments, true, true, 10⟩ := by
  have hstrings : asStrings (.array (arguments.map .string)) = some arguments := by
    induction arguments with
    | nil => rfl
    | cons arg arguments ih =>
      have hcons : asStrings (.array ((arg :: arguments).map .string)) =
          (asStrings (.array (arguments.map .string))).map (arg :: ·) := by
        simp only [asStrings, List.map_cons, List.mapM_cons, asString, Option.bind_eq_bind, Option.bind_some]
        cases (arguments.map Plist.string).mapM asString <;> rfl
      rw [hcons, ih, Option.map_some]
  unfold jobPlist Job.ofPlist
  repeat rw [String.toList_ofList]
  simp [List.lookup_cons, hstrings, asString, asBool, asInteger]

/-- **launchd finds the job that was written.** -/
theorem load_buildPlist {executable : List Char} {cfg : Config} (hexecutable : IsText executable)
    (hapi : IsText cfg.apiBaseURL) (hdata : IsText cfg.dataDir) : load (buildPlist executable cfg) =
      some ⟨"com.netlink.agent".toList, executable :: serviceArguments cfg, true, true, 10⟩ := by
  have hfixed : IsText "run".toList ∧ IsText "--api".toList ∧ IsText "--data".toList ∧
      IsText "--wake-helper".toList := by
    repeat rw [String.toList_ofList]
    decide
  have harguments : ∀ arg ∈ executable :: serviceArguments cfg, IsText arg := by
    have hguard {p : Prop} [Decidable p] {args : List (List Char)} (h : ∀ arg ∈ args, IsText arg) :
        ∀ arg ∈ if p then args else [], IsText arg := by
      split
      · exact h
      · nofun
    simp only [serviceArguments, List.forall_mem_cons, List.forall_mem_append]
    exact ⟨hexecutable, hfixed.1, ⟨hguard (List.forall_mem_cons.mpr ⟨hfixed.2.1, List.forall_mem_singleton.mpr hapi⟩),
      hguard (List.forall_mem_cons.mpr ⟨hfixed.2.2.1, List.forall_mem_singleton.mpr hdata⟩)⟩,
      hguard (List.forall_mem_singleton.mpr hfixed.2.2.2)⟩
  rw [load, buildPlist_eq, Plist.read_write (plain_jobPlist harguments), Option.bind_some, ofPlist_jobPlist]

/-! ## What is started is what was installed -/

theorem splitLoop_some (command : List Char) (args : List (List Char)) :
    splitLoop (some command) args = (some command, args) := by
  induction args with
  | nil => rfl
  | cons arg args ih => rw [splitLoop, if_neg (fun h => Bool.noConfusion h.1), ih]

/-- A known command in front is the command, whatever follows. -/
theorem splitCommand_known {command : List Char} (h : command ∈ knownCommands) (args : List (List Char)) :
    splitCommand (command :: args) = (command, args) := by
  have hdash : ∀ command ∈ knownCommands, command.head? ≠ some '-' := by
    unfold knownCommands
    simp only [List.map_cons, List.map_nil]
    repeat rw [String.toList_ofList]
    decide
  have hloop : splitLoop none (command :: args) = (some command, args) := by
    rw [splitLoop, if_pos ⟨rfl, hdash command h, List.contains_iff_mem.mpr h⟩, splitLoop_some]
  unfold splitCommand
  simp only [hloop]

/-- The three flags of a service. -/
theorem names_service (parseDuration : List Char → Option Duration) : Flag.Names (flags parseDuration) "--api".toList
      ⟨"api".toList, false, fun value cfg => some { cfg with apiBaseURL := value }⟩ ∧
    Flag.Names (flags parseDuration) "--data".toList
      ⟨"data".toList, false, fun value cfg => some { cfg with dataDir := value }⟩ ∧
    Flag.Names (flags parseDuration) "--wake-helper".toList ⟨"wake-helper".toList, true, fun value cfg =>
      (Flag.parseBool value).map fun b => { cfg with wakeHelper := b }⟩ := by
  unfold flags
  repeat rw [String.toList_ofList]
  exact ⟨⟨_, rfl, by decide, rfl, rfl⟩, ⟨_, rfl, by decide, rfl, rfl⟩, ⟨_, rfl, by decide, rfl, rfl⟩⟩

/-- An argument of a service is set where it is given. -/
theorem parse_option {flags : List (Flag.Spec Config)} {arg : List Char} {flag : Flag.Spec Config}
    (h : Flag.Names flags arg flag) (hbool : flag.isBool = false) {value : List Char} {cfg cfg' : Config}
    (hset : flag.set value cfg = some cfg') (args : List (List Char)) :
    Flag.parse flags cfg ((if value ≠ [] then [arg, value] else []) ++ args) =
      Flag.parse flags (if value = [] then cfg else cfg') args := by
  by_cases hvalue : value = []
  · rw [if_pos hvalue, if_neg (not_not.mpr hvalue), List.nil_append]
  · have hassign : Flag.assign flag value cfg = .ok cfg' := by rw [Flag.assign, hset]
    rw [if_neg hvalue, if_pos hvalue]
    show Flag.parse flags cfg (arg :: value :: args) = _
    rw [Flag.parse_next h hbool, hassign]
    rfl

/-- What a service is started with. -/
def started (env : Surroundings) (cfg : Config) : Config :=
  { env.defaults with
    apiBaseURL := if cfg.apiBaseURL = [] then env.apiURL else cfg.apiBaseURL
    dataDir := if cfg.dataDir = [] then env.dataDir else cfg.dataDir
    wakeHelper := cfg.wakeHelper }

theorem main_serviceArguments (env : Surroundings) (cfg : Config) :
    main env (serviceArguments cfg) = .ok ("run".toList, started env cfg) := by
  have hrun : "run".toList ∈ knownCommands := List.mem_map_of_mem List.mem_cons_self
  obtain ⟨hapi, hdata, hhelper⟩ := names_service env.parseDuration
  have hparse : Flag.parse (flags env.parseDuration) env.defaults
      ((if cfg.apiBaseURL ≠ [] then ["--api".toList, cfg.apiBaseURL] else []) ++
        ((if cfg.dataDir ≠ [] then ["--data".toList, cfg.dataDir] else []) ++
          if cfg.wakeHelper then ["--wake-helper".toList] else [])) = .ok (started env cfg, []) := by
    have hstarted : started env cfg = { (if cfg.dataDir = [] then
          (if cfg.apiBaseURL = [] then env.defaults else { env.defaults with apiBaseURL := cfg.apiBaseURL })
        else { (if cfg.apiBaseURL = [] then env.defaults else { env.defaults with apiBaseURL := cfg.apiBaseURL }) with
          dataDir := cfg.dataDir }) with wakeHelper := cfg.wakeHelper } := by
      unfold started
      split <;> split <;> rfl
    rw [parse_option hapi rfl rfl, parse_option hdata rfl rfl, hstarted]
    cases hwake : cfg.wakeHelper with
    | false => split <;> split <;> rfl
    | true =>
      rw [if_pos rfl, Flag.parse_true hhelper rfl]
      rfl
  unfold main serviceArguments
  rw [splitCommand_known hrun]
  simp only [List.append_assoc, hparse]
  rfl

/-- **launchd starts what was installed.** -/
theorem starts_installed {executable : List Char} {cfg : Config} (hexecutable : IsText executable)
    (hapi : IsText cfg.apiBaseURL) (hdata : IsText cfg.dataDir) (env : Surroundings) :
    ∃ job, load (buildPlist executable cfg) = some job ∧ job.programArguments.head? = some executable ∧
      job.runAtLoad ∧ job.keepAlive ∧ main env job.programArguments.tail = .ok ("run".toList, started env cfg) :=
  ⟨_, load_buildPlist hexecutable hapi hdata, rfl, rfl, rfl, main_serviceArguments env cfg⟩

/-- A directory as in the comment of the source. -/
def workAndHome : Config := ⟨"https://hub/api".toList, "/Work & Home".toList, [], 0, false, [], true⟩

theorem starts_installed_workAndHome : ∃ job, load (buildPlist "/opt/agent".toList workAndHome) = some job ∧
    job.programArguments.head? = some "/opt/agent".toList ∧ job.runAtLoad ∧ job.keepAlive ∧
    main ⟨fun _ => none, [], [], [], 30⟩ job.programArguments.tail =
      .ok ("run".toList, started ⟨fun _ => none, [], [], [], 30⟩ workAndHome) := by
  have htext : IsText "/opt/agent".toList ∧ IsText workAndHome.apiBaseURL ∧ IsText workAndHome.dataDir := by
    unfold workAndHome
    repeat rw [String.toList_ofList]
    decide
  exact starts_installed htext.1 htext.2.1 htext.2.2 _

/-- The arguments of the Windows service. -/
def windowsArguments (cfg : Config) : List (List Char) :=
  ["run".toList, "--api".toList, cfg.apiBaseURL, "--data".toList, cfg.dataDir]

/-- A Windows service is no wake helper, and takes an empty address as it is. -/
theorem main_windowsArguments (env : Surroundings) (cfg : Config) : main env (windowsArguments cfg) =
    .ok ("run".toList, { env.defaults with apiBaseURL := cfg.apiBaseURL, dataDir := cfg.dataDir }) := by
  have hrun : "run".toList ∈ knownCommands := List.mem_map_of_mem List.mem_cons_self
  obtain ⟨hapi, hdata, -⟩ := names_service env.parseDuration
  have hparse : Flag.parse (flags env.parseDuration) env.defaults
      ["--api".toList, cfg.apiBaseURL, "--data".toList, cfg.dataDir] =
        .ok ({ env.defaults with apiBaseURL := cfg.apiBaseURL, dataDir := cfg.dataDir }, []) := by
    rw [Flag.parse_next hapi rfl]
    show Flag.parse _ _ _ = _
    rw [Flag.parse_next hdata rfl]
    rfl
  unfold main windowsArguments
  rw [splitCommand_known hrun]
  simp only [hparse]
  rfl

end Launchd

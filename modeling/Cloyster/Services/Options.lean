import Cloyster.Basic

/-! The options of the command line: the variables, the table that binds each option to one of
them, and the factory. The values that were given are stored in the order of the table, so two
options that are bound to one variable leave the value of the later one. CLI11 reads the command
line; how it does is a parameter, and it stores the values of a line that it accepts. -/

namespace Cloyster

open Lib

/-- All members, in a release build. Those that the other modelled code reads come first. -/
structure AllOptions extends Options where
  parsingError : Bool := false
  helpAndExit : Bool := false
  showVersion : Bool := false
  runAsRoot : Bool := false
  enableTUI : Bool := false
  enableCLI : Bool := false
  runAsDaemon : Bool := false
  airGap : Bool := false
  unattended : Bool := false
  logLevelInput : ℕ := 3
  error : String := "NO ERROR"
  config : String := ""
  helpText : String := ""
  airGapUrl : String := "file:///var/repos/"
  dumpAnswerfile : String := ""
  stopAfterStep : String := ""
  ohpcPackages : List String := []
  deriving DecidableEq

namespace AllOptions

/-- Options by their long names, each with its value. A flag comes with `true`. -/
abbrev CommandLine := List (String × String)

/-- The values an option was given, in their order. -/
def results (line : CommandLine) (name : String) : List String :=
  (line.filter (·.1 = name)).map Prod.snd

/-- An option, and how its values get into the variable it is bound to. -/
structure Binding where
  name : String
  store : List String → AllOptions → AllOptions

def addFlag (name : String) (set : Bool → AllOptions → AllOptions) : Binding where
  name
  store results := set (results.getLast? ≠ some "false")

def addOption (name : String) (set : String → AllOptions → AllOptions) : Binding where
  name
  store results := set (results.getLast?.getD "")

/-- `MultiOptionPolicy::TakeAll`. -/
def addOptions (name : String) (set : List String → AllOptions → AllOptions) : Binding where
  name
  store := set

def bindings : List Binding :=
  [ addFlag "--version" fun v opt => { opt with showVersion := v },
    addFlag "--root" fun v opt => { opt with runAsRoot := v },
    addFlag "--dry" fun v opt => { opt with dryRun := v },
    addFlag "--tui" fun v opt => { opt with enableTUI := v },
    addFlag "--cli" fun v opt => { opt with enableCLI := v },
    addFlag "--daemon" fun v opt => { opt with runAsDaemon := v },
    addFlag "--disable-mirrors" fun v opt => { opt with disableMirrors := v },
    addOption "--mirror-url" fun v opt => { opt with mirrorBaseUrl := v },
    addOption "--beegfs-version" fun v opt => { opt with beegfsVersion := v },
    addOption "--xcat-version" fun v opt => { opt with beegfsVersion := v },
    addOption "--zabbix-version" fun v opt => { opt with zabbixVersion := v },
    addOption "--log-level" fun v opt => { opt with logLevelInput := Text.digitsValue v.toList },
    addOption "--answerfile" fun v opt => { opt with answerfile := v },
    addOptions "--skip" fun v opt => { opt with skipSteps := v },
    addOptions "--force" fun v opt => { opt with forceSteps := v },
    addOption "--stop-after" fun v opt => { opt with stopAfterStep := v },
    addOptions "--ohpc-packages" fun v opt => { opt with ohpcPackages := v },
    addFlag "--unattended" fun v opt => { opt with unattended := v },
    addOption "--dump-answerfile" fun v opt => { opt with dumpAnswerfile := v },
    addOption "--config" fun v opt => { opt with config := v } ]

/-- An option that was not given leaves its variable as it is. -/
def storeGiven (given : String → List String) (opt : AllOptions) (binding : Binding) :
    AllOptions :=
  if given binding.name = [] then opt else binding.store (given binding.name) opt

/-- Everything that a line gives, in the order of the table. -/
def storeAll (line : CommandLine) (opt : AllOptions) : AllOptions :=
  bindings.foldl (storeGiven (results line)) opt

/-- What `parse` may throw. The first two are parse errors as well. -/
inductive Thrown where
  | callForHelp (what : String)
  | callForVersion (what : String)
  | parseError (what : String)

def Thrown.what : Thrown → String
  | .callForHelp what => what
  | .callForVersion what => what
  | .parseError what => what

/-- The options that take one value. -/
inductive ValueOption where
  | xcatVersion | beegfsVersion | zabbixVersion | mirrorUrl | answerfile | stopAfter
  | dumpAnswerfile
  deriving DecidableEq

instance : Fintype ValueOption :=
  ⟨{.xcatVersion, .beegfsVersion, .zabbixVersion, .mirrorUrl, .answerfile, .stopAfter,
    .dumpAnswerfile}, by intro option; cases option <;> simp⟩

namespace ValueOption

def name : ValueOption → String
  | .xcatVersion => "--xcat-version"
  | .beegfsVersion => "--beegfs-version"
  | .zabbixVersion => "--zabbix-version"
  | .mirrorUrl => "--mirror-url"
  | .answerfile => "--answerfile"
  | .stopAfter => "--stop-after"
  | .dumpAnswerfile => "--dump-answerfile"

/-- The member that the option names. -/
def get (option : ValueOption) (opt : AllOptions) : String :=
  match option with
  | .xcatVersion => opt.xcatVersion
  | .beegfsVersion => opt.beegfsVersion
  | .zabbixVersion => opt.zabbixVersion
  | .mirrorUrl => opt.mirrorBaseUrl
  | .answerfile => opt.answerfile
  | .stopAfter => opt.stopAfterStep
  | .dumpAnswerfile => opt.dumpAnswerfile

def set (option : ValueOption) (value : String) (opt : AllOptions) : AllOptions :=
  match option with
  | .xcatVersion => { opt with xcatVersion := value }
  | .beegfsVersion => { opt with beegfsVersion := value }
  | .zabbixVersion => { opt with zabbixVersion := value }
  | .mirrorUrl => { opt with mirrorBaseUrl := value }
  | .answerfile => { opt with answerfile := value }
  | .stopAfter => { opt with stopAfterStep := value }
  | .dumpAnswerfile => { opt with dumpAnswerfile := value }

end ValueOption

/-- The CLI11 application. A line that it accepts has its values stored, and has none of the
options with one value twice. -/
structure App where
  parse : CommandLine → AllOptions → AllOptions × Option Thrown
  parseFromStream : String → AllOptions → AllOptions × Option Thrown
  help : String
  stores : ∀ line opt, (parse line opt).2 = none → (parse line opt).1 = storeAll line opt
  once : ∀ line opt (option : ValueOption), (parse line opt).2 = none →
    (results line option.name).length ≤ 1

/-- What the handlers make of an exception of the first parse. -/
def handle (app : App) (opt : AllOptions) : Option Thrown → AllOptions
  | none => opt
  | some (.callForHelp _) => { opt with helpText := app.help, helpAndExit := true }
  | some (.callForVersion _) => { opt with showVersion := true }
  | some (.parseError what) => { opt with parsingError := true, error := what }

/-- The options of a configuration file are stored over those of the line. -/
def parseConfig (app : App) (configFile : String → Option String) (opt : AllOptions) :
    Except String AllOptions :=
  if opt.config = "" then .ok opt
  else match configFile opt.config with
    -- `CLI::FileError::Missing`
    | none => .error s!"{opt.config} was not readable (missing?)"
    | some content =>
      match app.parseFromStream content opt with
      | (opt, none) => .ok opt
      | (opt, some thrown) => .ok { opt with parsingError := true, error := thrown.what }

def defaultPackages : List String :=
  ["openmpi4-gnu12-ohpc", "mpich-ofi-gnu12-ohpc", "mpich-ucx-gnu12-ohpc",
    "mvapich2-gnu12-ohpc", "lmod-defaults-gnu12-openmpi4-ohpc", "ohpc-autotools", "hwloc-ohpc",
    "spack-ohpc", "valgrind-ohpc"]

def initializeSets (opt : AllOptions) : AllOptions :=
  if opt.ohpcPackages = [] then { opt with ohpcPackages := defaultPackages } else opt

def factory (app : App) (configFile : String → Option String) (line : CommandLine) :
    Except String AllOptions := do
  let (opt, thrown) := app.parse line {}
  let opt ← parseConfig app configFile (handle app opt thrown)
  return initializeSets opt

/-- The members agree but for the one that the option names, which holds the value given. -/
structure ChangesOnly (option : ValueOption) (v w : String) (opt opt' : AllOptions) : Prop where
  given : option.get opt = v
  given' : option.get opt' = w
  others : opt' = option.set w opt

/-- No other option of the line is bound to the member that the option names, and this one is. -/
def BoundAlone (option : ValueOption) (line : CommandLine) : Prop :=
  option ≠ .xcatVersion ∧ (option = .beegfsVersion → ∀ given ∈ line, given.1 ≠ "--xcat-version")

variable {app : App} {configFile : String → Option String} {line l r : CommandLine}
  {option : ValueOption} {v w : String} {opt opt' : AllOptions}
  {given given' : String → List String} {table : List Binding}

/-! ### What was given -/

/-- An option that is given once more than in the rest of the line. -/
theorem results_append_cons (l r : CommandLine) (name v n : String) :
    results (l ++ (name, v) :: r) n =
      results l n ++ (if name = n then [v] else []) ++ results r n := by
  rw [results, List.filter_append, List.filter_cons]
  by_cases h : name = n <;> simp [results, h]

theorem results_of_ne {name n : String} (h : n ≠ name) :
    results (l ++ (name, v) :: r) n = results (l ++ r) n := by
  rw [results_append_cons, if_neg (Ne.symm h), List.append_nil]
  simp [results]

theorem results_of_once (h : (results (l ++ (option.name, v) :: r) option.name).length ≤ 1) :
    results (l ++ (option.name, v) :: r) option.name = [v] := by
  rw [results_append_cons, if_pos rfl] at h ⊢
  simp only [List.length_append, List.length_singleton] at h
  rw [List.length_eq_zero_iff.mp (by omega : (results l option.name).length = 0),
    List.length_eq_zero_iff.mp (by omega : (results r option.name).length = 0)]
  rfl

theorem results_eq_nil_iff {name : String} :
    results line name = [] ↔ ∀ given ∈ line, given.1 ≠ name := by
  simp [results]

/-! ### The table -/

theorem foldl_storeGiven_congr (h : ∀ b ∈ table, given b.name = given' b.name)
    (opt : AllOptions) :
    table.foldl (storeGiven given) opt = table.foldl (storeGiven given') opt :=
  List.foldl_ext _ _ _ fun opt b hb => by rw [storeGiven, storeGiven, h b hb]

/-- A member that no given option is bound to. -/
theorem foldl_storeGiven_keeps {β : Type} (member : AllOptions → β)
    (h : ∀ b ∈ table, given b.name ≠ [] → ∀ opt,
      member (b.store (given b.name) opt) = member opt) (opt : AllOptions) :
    member (table.foldl (storeGiven given) opt) = member opt := by
  induction table generalizing opt with
  | nil => rfl
  | cons b table ih =>
    rw [List.forall_mem_cons] at h
    rw [List.foldl_cons, ih h.2, storeGiven]
    split_ifs with hgiven
    · rfl
    · exact h.1 hgiven opt

/-- A value that no later option writes to may as well be stored at the end. -/
theorem foldl_storeGiven_set (h : ∀ b ∈ table, given b.name ≠ [] → ∀ opt,
      b.store (given b.name) (option.set v opt) = option.set v (b.store (given b.name) opt))
    (opt : AllOptions) :
    table.foldl (storeGiven given) (option.set v opt) =
      option.set v (table.foldl (storeGiven given) opt) := by
  induction table generalizing opt with
  | nil => rfl
  | cons b table ih =>
    rw [List.forall_mem_cons] at h
    have hfirst : storeGiven given (option.set v opt) b =
        option.set v (storeGiven given opt b) := by
      unfold storeGiven
      split_ifs with hgiven
      · rfl
      · exact h.1 hgiven opt
    rw [List.foldl_cons, List.foldl_cons, hfirst, ih h.2]

/-- The options of the table that write to the member. -/
def Writes (option : ValueOption) (name : String) : Prop :=
  option ≠ .xcatVersion ∧ name = option.name ∨
    option = .beegfsVersion ∧ name = ValueOption.xcatVersion.name

instance (option : ValueOption) (name : String) : Decidable (Writes option name) :=
  inferInstanceAs (Decidable (_ ∨ _))

/-- All other options of the table write to other members. -/
theorem store_set (option : ValueOption) : ∀ b ∈ bindings, ¬ Writes option b.name →
    ∀ results v opt, b.store results (option.set v opt) = option.set v (b.store results opt) := by
  simp only [bindings, List.forall_mem_cons]
  and_intros
  all_goals
    first
    | exact fun b hb => absurd hb List.not_mem_nil
    | intro hwrites results v opt
      cases option <;>
        first
        | rfl
        | exact absurd (by decide) hwrites

theorem config_store : ∀ b ∈ bindings, b.name ≠ "--config" →
    ∀ results opt, (b.store results opt).config = opt.config := by
  simp only [bindings, List.forall_mem_cons]
  and_intros
  all_goals
    first
    | exact fun b hb => absurd hb List.not_mem_nil
    | intro hname results opt
      first
      | rfl
      | exact absurd rfl hname

/-- What is read of a member does not depend on the options that write to others. -/
theorem get_store (option : ValueOption) (b : Binding) (hb : b ∈ bindings)
    (hwrites : ¬ Writes option b.name) (results : List String) (opt : AllOptions) :
    option.get (b.store results opt) = option.get opt := by
  have hset : opt = option.set (option.get opt) opt := by cases option <;> rfl
  have hget (v : String) (opt : AllOptions) : option.get (option.set v opt) = v := by
    cases option <;> rfl
  rw [hset, store_set option b hb hwrites, hget, hget]

theorem exists_split (h : option ≠ .xcatVersion) : ∃ pre post,
    bindings = pre ++ addOption option.name option.set :: post ∧
      ∀ b ∈ pre ++ post, b.name ≠ option.name := by
  cases option with
  | xcatVersion => exact absurd rfl h
  | beegfsVersion => exact ⟨bindings.take 8, bindings.drop 9, rfl, by decide⟩
  | zabbixVersion => exact ⟨bindings.take 10, bindings.drop 11, rfl, by decide⟩
  | mirrorUrl => exact ⟨bindings.take 7, bindings.drop 8, rfl, by decide⟩
  | answerfile => exact ⟨bindings.take 12, bindings.drop 13, rfl, by decide⟩
  | stopAfter => exact ⟨bindings.take 15, bindings.drop 16, rfl, by decide⟩
  | dumpAnswerfile => exact ⟨bindings.take 18, bindings.drop 19, rfl, by decide⟩

/-- Whatever the value, the rest of the line gives the rest of the members. -/
theorem storeAll_eq_set (hbound : BoundAlone option (l ++ r)) (opt : AllOptions) :
    ∃ opt', ∀ v, (results (l ++ (option.name, v) :: r) option.name).length ≤ 1 →
      storeAll (l ++ (option.name, v) :: r) opt = option.set v opt' := by
  obtain ⟨pre, post, hsplit, hnames⟩ := exists_split hbound.1
  refine ⟨post.foldl (storeGiven (results (l ++ r)))
    (pre.foldl (storeGiven (results (l ++ r))) opt), fun v honce => ?_⟩
  have hrest : ∀ b ∈ pre ++ post,
      results (l ++ (option.name, v) :: r) b.name = results (l ++ r) b.name :=
    fun b hb => results_of_ne (hnames b hb)
  rw [List.forall_mem_append] at hrest
  have hfirst (opt : AllOptions) : storeGiven (results (l ++ (option.name, v) :: r)) opt
      (addOption option.name option.set) = option.set v opt := by
    rw [storeGiven, addOption, results_of_once honce]
    rfl
  rw [storeAll, hsplit, List.foldl_append, List.foldl_cons, hfirst,
    foldl_storeGiven_congr hrest.1, foldl_storeGiven_congr hrest.2]
  refine foldl_storeGiven_set (fun b hb hgiven opt => ?_) _
  refine store_set option b (by rw [hsplit]; simp [hb]) ?_ _ _ _
  rintro (⟨-, hname⟩ | ⟨hbeegfs, hname⟩)
  · exact hnames b (List.mem_append_right _ hb) hname
  · rw [hname] at hgiven
    exact hgiven (results_eq_nil_iff.mpr (hbound.2 hbeegfs))

/-! ### The factory -/

/-- A line that is accepted and names no configuration file. -/
theorem factory_of_accepted (haccept : (app.parse line {}).2 = none)
    (hconfig : ∀ given ∈ line, given.1 ≠ "--config") (configFile : String → Option String) :
    factory app configFile line = .ok (initializeSets (storeAll line {})) := by
  have hstored := app.stores line {} haccept
  have hempty : (storeAll line {}).config = "" := by
    refine foldl_storeGiven_keeps AllOptions.config (fun b hb hgiven => ?_) {}
    refine config_store b hb (fun hname => ?_) _
    rw [hname] at hgiven
    exact hgiven (results_eq_nil_iff.mpr hconfig)
  rw [factory]
  simp only [haccept, handle, hstored, parseConfig, hempty, if_true]
  rfl

theorem initializeSets_set (option : ValueOption) (v : String) (opt : AllOptions) :
    initializeSets (option.set v opt) = option.set v (initializeSets opt) := by
  have hpackages : (option.set v opt).ohpcPackages = opt.ohpcPackages := by cases option <;> rfl
  rw [initializeSets, initializeSets, hpackages]
  split_ifs
  · cases option <;> rfl
  · rfl

theorem get_initializeSets (option : ValueOption) (opt : AllOptions) :
    option.get (initializeSets opt) = option.get opt := by
  rw [initializeSets]
  split_ifs
  · cases option <;> rfl
  · rfl

/-! ### Options that are not bound alone -/

/-- Nothing is bound to the version of xCAT, so it stays the default. -/
theorem xcatVersion_storeAll (line : CommandLine) :
    ValueOption.xcatVersion.get (storeAll line {}) = "latest" :=
  foldl_storeGiven_keeps _
    (fun b hb _ => get_store .xcatVersion b hb (by simp [Writes]) _) {}

/-- The version of xCAT is stored over the version of BeeGFS. -/
theorem beegfsVersion_storeAll (hgiven : results line "--xcat-version" ≠ []) :
    ValueOption.beegfsVersion.get (storeAll line {}) =
      (results line "--xcat-version").getLast?.getD "" := by
  have hsplit : bindings = bindings.take 9 ++
      addOption "--xcat-version" (fun v opt => { opt with beegfsVersion := v }) ::
        bindings.drop 10 := rfl
  have hrest : ∀ b ∈ bindings.drop 10, ¬ Writes .beegfsVersion b.name := by decide
  rw [storeAll, hsplit, List.foldl_append, List.foldl_cons, foldl_storeGiven_keeps _
    (fun b hb _ => get_store .beegfsVersion b (List.mem_of_mem_drop hb) (hrest b hb) _),
    storeGiven, addOption, if_neg hgiven]
  rfl

/-- Two values of an option that is not bound alone leave the member as it is. -/
theorem get_storeAll_eq (hbound : ¬ BoundAlone option (l ++ r)) (v w : String) :
    option.get (storeAll (l ++ (option.name, v) :: r) {}) =
      option.get (storeAll (l ++ (option.name, w) :: r) {}) := by
  by_cases hxcat : option = .xcatVersion
  · subst hxcat
    rw [xcatVersion_storeAll, xcatVersion_storeAll]
  · obtain ⟨rfl, hgiven⟩ : option = .beegfsVersion ∧
        results (l ++ r) "--xcat-version" ≠ [] := by
      rw [ne_eq, results_eq_nil_iff]
      rw [BoundAlone] at hbound
      tauto
    have hname : "--xcat-version" ≠ ValueOption.beegfsVersion.name := by decide
    have hresults (v : String) := results_of_ne (l := l) (r := r) (v := v) hname
    rw [beegfsVersion_storeAll (by rwa [hresults]), beegfsVersion_storeAll (by rwa [hresults]),
      hresults, hresults]

/-! ### Two lines -/

/-- Two lines that are accepted, with two values of one option, give options that differ in its
member alone. -/
def Separates (app : App) (configFile : String → Option String) (l r : CommandLine)
    (option : ValueOption) (v w : String) : Prop :=
  ∃ opt opt', factory app configFile (l ++ (option.name, v) :: r) = .ok opt ∧
    factory app configFile (l ++ (option.name, w) :: r) = .ok opt' ∧
    ChangesOnly option v w opt opt'

theorem not_separates (hne : v ≠ w) (hbound : ¬ BoundAlone option (l ++ r))
    (hv : factory app configFile (l ++ (option.name, v) :: r) =
      .ok (initializeSets (storeAll (l ++ (option.name, v) :: r) {})))
    (hw : factory app configFile (l ++ (option.name, w) :: r) =
      .ok (initializeSets (storeAll (l ++ (option.name, w) :: r) {}))) :
    ¬ Separates app configFile l r option v w := by
  rintro ⟨opt, opt', hopt, hopt', hchanges⟩
  have hsame := get_storeAll_eq hbound v w
  obtain rfl := Except.ok.inj (hv.symm.trans hopt)
  obtain rfl := Except.ok.inj (hw.symm.trans hopt')
  rw [← get_initializeSets, hchanges.given, ← get_initializeSets, hchanges.given'] at hsame
  exact hne hsame

/-- Of two lines that differ in the value of one option, the options differ in its member alone
exactly when the option is not the version of xCAT, and not the version of BeeGFS beside one of
xCAT. -/
theorem separates_iff (app : App) (configFile : String → Option String) (l r : CommandLine)
    (option : ValueOption) (hne : v ≠ w)
    (hconfig : ∀ given ∈ l ++ r, given.1 ≠ "--config")
    (hv : (app.parse (l ++ (option.name, v) :: r) {}).2 = none)
    (hw : (app.parse (l ++ (option.name, w) :: r) {}).2 = none) :
    Separates app configFile l r option v w ↔ BoundAlone option (l ++ r) := by
  have hno (u : String) : ∀ given ∈ l ++ (option.name, u) :: r, given.1 ≠ "--config" := by
    simp only [List.forall_mem_append, List.forall_mem_cons] at hconfig ⊢
    refine ⟨hconfig.1, ?_, hconfig.2⟩
    cases option <;> decide
  have hopt := factory_of_accepted hv (hno v) configFile
  have hopt' := factory_of_accepted hw (hno w) configFile
  constructor
  · intro hseparates
    by_contra hbound
    exact not_separates hne hbound hopt hopt' hseparates
  · intro hbound
    obtain ⟨opt, hset⟩ := storeAll_eq_set hbound {}
    refine ⟨_, _, hopt, hopt', ?_⟩
    rw [hset v (app.once _ _ option hv), hset w (app.once _ _ option hw), initializeSets_set,
      initializeSets_set]
    refine ⟨?_, ?_, ?_⟩ <;> cases option <;> rfl

/-- Lines without an option twice are accepted, and no files are. -/
def sampleApp : App where
  parse line opt :=
    if ∀ option : ValueOption, (results line option.name).length ≤ 1 then
      (storeAll line opt, none)
    else (opt, some (.parseError "1 argument required"))
  parseFromStream _ opt := (opt, some (.parseError "INI was not able to parse"))
  help := ""
  stores line opt h := by
    split_ifs at h ⊢
    rfl
  once line opt option h := by
    split_ifs at h with honce
    exact honce option

theorem separates_iff_zabbixVersion :
    Separates sampleApp (fun _ => none) [("--xcat-version", "2.17")] [("--dry", "true")]
      .zabbixVersion "6.4" "7.0" :=
  (separates_iff sampleApp _ _ _ .zabbixVersion (by decide) (by decide) (by decide)
    (by decide)).mpr ⟨by decide, by decide⟩

/-- Both lines are accepted. -/
theorem not_separates_xcatVersion :
    (sampleApp.parse [("--xcat-version", "2.16.5")] {}).2 = none ∧
    (sampleApp.parse [("--xcat-version", "2.17")] {}).2 = none ∧
    ¬ Separates sampleApp (fun _ => none) [] [] .xcatVersion "2.16.5" "2.17" :=
  ⟨by decide, by decide, not_separates (by decide) (fun h => h.1 rfl)
    (factory_of_accepted (by decide) (by decide) _)
    (factory_of_accepted (by decide) (by decide) _)⟩

end AllOptions

end Cloyster

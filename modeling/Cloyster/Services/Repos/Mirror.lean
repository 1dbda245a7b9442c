import Cloyster.Services.Repos.Config
import Cloyster.Services.Repos.RPM

/-! The choice between a mirror and the upstream of a repository. Existence is
asked of the file system or of the network, and two questions about the same
location may be answered differently, so the answers are a function of how many
questions came before. Only a local mirror can throw: its path is cut out of the
address, which must still start with `file://` after trailing slashes are gone. -/

namespace Cloyster

open Lib

/-- A question to an existence checker. -/
inductive Query where
  | mirrorPath (path : String)
  | mirrorUrl (url : String)
  | upstreamUrl (url : String)
  deriving DecidableEq

/-- The answer to the `n`-th question. -/
abbrev Answers := ℕ → Query → Bool

/-- Programs that ask; the state counts the questions so far. -/
abbrev AskM := EStateM Exn ℕ

variable (opts : Options) (answers : Answers)

def ask (query : Query) : AskM Bool := do
  let n ← get
  set (n + 1)
  return answers n query

def repomd (baseurl : String) : String := baseurl ++ "/repodata/repomd.xml"

namespace MirrorRepo

variable (paths : RepoPaths)

def baseurl : String := Text.rstrip (opts.mirrorBaseUrl ++ "/" ++ paths.repo) "/"

def gpgkey : Option String := paths.gpgkey.map fun path => opts.mirrorBaseUrl ++ "/" ++ path

def isLocalUrl (url : String) : Bool := Text.startsWith url "file://"

/-- `substr` past the end of the text throws. -/
def localPath (url : String) : Except Exn String := do
  throwIf (url.toList.length < 7) ⟨.outOfRange, "basic_string_view::substr"⟩
  return String.ofList (url.toList.drop 7)

def «exists» : AskM Bool := do
  if paths.repo = "" then return false
  else if isLocalUrl opts.mirrorBaseUrl then
    let path ← liftExcept (localPath (baseurl opts paths))
    ask answers (.mirrorPath path)
  else ask answers (.mirrorUrl (repomd (baseurl opts paths)))

/-- Nothing but slashes follows `file://`, and the path is slashes only. -/
structure NamesRoot : Prop where
  isLocal : isLocalUrl opts.mirrorBaseUrl
  base : ∀ c ∈ opts.mirrorBaseUrl.toList.drop 7, c = '/'
  ne_empty : paths.repo ≠ ""
  repo : ∀ c ∈ paths.repo.toList, c = '/'

/-- The path of a local mirror is cut out of a local address, asking always returns, and the
address is the whole one without its trailing slashes, so one slash leads to `repodata`. -/
structure RespectsPrecondition : Prop where
  isLocal : isLocalUrl opts.mirrorBaseUrl → paths.repo ≠ "" → isLocalUrl (baseurl opts paths)
  returns : ∀ answers n, ∃ found m, «exists» opts answers paths n = .ok found m
  stripped : ∃ n, (baseurl opts paths).toList ++ List.replicate n '/' =
    (opts.mirrorBaseUrl ++ "/" ++ paths.repo).toList
  last : (baseurl opts paths).toList.getLast? ≠ some '/'
  probe : ∃ l, (repomd (baseurl opts paths)).toList = l ++ '/' :: "repodata/repomd.xml".toList ∧
    l.getLast? ≠ some '/'

end MirrorRepo

namespace UpstreamRepo

variable (paths : RepoPaths)

def baseurl : String := Text.rstrip paths.repo "/"

def «exists» : AskM Bool := ask answers (.upstreamUrl (repomd (baseurl paths)))

/-- A key that is not found disables the check of signatures. -/
def gpgkey : AskM (Option String) := do
  match paths.gpgkey with
  | none => return none
  | some url =>
    let found ← ask answers (.upstreamUrl url)
    return if found then some url else none

end UpstreamRepo

inductive Choice where
  | UPSTREAM | MIRROR
  deriving DecidableEq, Repr

/-- `RepoChooser::choose`. -/
def choose (mirror upstream : RepoPaths) (forceUpstream : Bool) : AskM Choice := do
  if forceUpstream then return .UPSTREAM
  else if opts.disableMirrors then return .UPSTREAM
  else
    let found ← MirrorRepo.exists opts answers mirror
    if found then return .MIRROR
    else
      -- asked for the sake of a warning
      let _ ← UpstreamRepo.exists answers upstream
      return .UPSTREAM

/-- `RepoAssembler::assemble`. -/
def assemble (repoid : RepoId) (mirror upstream : RepoPaths) (enabled forceUpstream : Bool) :
    AskM RPMRepository := do
  let repo : RPMRepository :=
    { id := repoid.id, group := repoid.id, name := repoid.name, source := repoid.filename, enabled }
  match ← choose opts answers mirror upstream forceUpstream with
  | .UPSTREAM =>
    let gpgkey ← UpstreamRepo.gpgkey answers upstream
    let checked ← UpstreamRepo.gpgkey answers upstream
    return { repo with baseurl := some (UpstreamRepo.baseurl upstream), gpgkey,
                       gpgcheck := checked.isSome }
  | .MIRROR =>
    return { repo with baseurl := some (MirrorRepo.baseurl opts mirror),
                       gpgkey := MirrorRepo.gpgkey opts mirror,
                       gpgcheck := (MirrorRepo.gpgkey opts mirror).isSome }

/-- `RepoConfAdapter::fromConfig`. -/
def fromConfig (config : RepoConfig) : AskM RPMRepository :=
  assemble opts answers config.repoId config.mirror config.upstream false false

/-! ### When choosing throws -/

variable {opts answers}

/-- The mirror is a local directory named by slashes only, and so is the path of
the repository in it: without its trailing slashes the address is `file:`. -/
structure LocalRootMirror (opts : Options) (mirror : RepoPaths) : Prop where
  enabled : opts.disableMirrors = false
  isLocal : MirrorRepo.isLocalUrl opts.mirrorBaseUrl
  base : ∀ c ∈ opts.mirrorBaseUrl.toList.drop 7, c = '/'
  ne_empty : mirror.repo ≠ ""
  repo : ∀ c ∈ mirror.repo.toList, c = '/'

theorem localRootMirror_iff {mirror : RepoPaths} :
    LocalRootMirror opts mirror ↔
      opts.disableMirrors = false ∧ MirrorRepo.NamesRoot opts mirror := by
  constructor
  · rintro ⟨henabled, hlocal, hbase, hne, hrepo⟩
    exact ⟨henabled, hlocal, hbase, hne, hrepo⟩
  · rintro ⟨henabled, hlocal, hbase, hne, hrepo⟩
    exact ⟨henabled, hlocal, hbase, hne, hrepo⟩

namespace MirrorRepo

theorem isLocalUrl_iff {url : String} :
    isLocalUrl url ↔ ['f', 'i', 'l', 'e', ':', '/', '/'] <+: url.toList := by
  rw [isLocalUrl, Text.startsWith, List.isPrefixOf_iff_prefix]
  rfl

theorem mem_slash_iff {c : Char} : c ∈ "/".toList ↔ c = '/' := List.mem_singleton

/-- The address before its trailing slashes are cut. -/
theorem toList_url (base repo : String) :
    (base ++ "/" ++ repo).toList = base.toList ++ '/' :: repo.toList := by
  simp

/-- What is left of a local address is local when it is long enough. -/
theorem isLocalUrl_baseurl_iff (paths : RepoPaths) (hlocal : isLocalUrl opts.mirrorBaseUrl) :
    isLocalUrl (baseurl opts paths) ↔ ¬ (baseurl opts paths).toList.length < 7 := by
  rw [isLocalUrl_iff] at hlocal ⊢
  obtain ⟨cut, hcut, -⟩ := Text.exists_rstrip_append (opts.mirrorBaseUrl ++ "/" ++ paths.repo) "/"
  rw [toList_url] at hcut
  constructor
  · intro h
    exact not_lt_of_ge h.length_le
  · intro h
    have hwhole := hlocal.trans (List.prefix_append _ ('/' :: paths.repo.toList))
    exact List.prefix_of_prefix_length_le hwhole ⟨cut, hcut⟩ (not_lt.mp h)

end MirrorRepo

/-- A local address is cut short only when nothing but slashes follows `file:`. -/
theorem baseurl_short_iff (mirror : RepoPaths)
    (hlocal : MirrorRepo.isLocalUrl opts.mirrorBaseUrl) :
    (MirrorRepo.baseurl opts mirror).toList.length < 7 ↔
      (∀ c ∈ opts.mirrorBaseUrl.toList.drop 7, c = '/') ∧ ∀ c ∈ mirror.repo.toList, c = '/' := by
  obtain ⟨rest, hrest⟩ := MirrorRepo.isLocalUrl_iff.mp hlocal
  rw [Nat.lt_succ_iff, MirrorRepo.baseurl, Text.length_rstrip_le_iff, MirrorRepo.toList_url,
    ← hrest]
  simp only [MirrorRepo.mem_slash_iff]
  -- the sixth character is the second slash of `file://`
  change (∀ c ∈ '/' :: (rest ++ '/' :: mirror.repo.toList), c = '/') ↔
    (∀ c ∈ rest, c = '/') ∧ _
  rw [List.forall_mem_cons, List.forall_mem_append, List.forall_mem_cons]
  simp

@[simp] theorem ask_apply (query : Query) (n : ℕ) :
    ask answers query n = .ok (answers n query) (n + 1) := rfl

theorem localPath_ok_iff {url path : String} :
    MirrorRepo.localPath url = .ok path ↔
      ¬ url.toList.length < 7 ∧ String.ofList (url.toList.drop 7) = path := by
  rw [MirrorRepo.localPath, except_bind_ok_iff]
  simp only [throwIf_ok_iff, except_pure_ok_iff, exists_and_left, exists_const]

/-- Asking whether a mirror exists returns unless its path cannot be cut out. -/
theorem exists_ok_iff (answers : Answers) (mirror : RepoPaths) (n : ℕ) :
    (∃ found m, MirrorRepo.exists opts answers mirror n = .ok found m) ↔
      ¬ MirrorRepo.NamesRoot opts mirror := by
  unfold MirrorRepo.exists
  by_cases hne : mirror.repo = ""
  · simp only [hne, if_true, pure_apply]
    exact ⟨fun _ hroot => hroot.ne_empty hne, fun _ => ⟨_, _, rfl⟩⟩
  by_cases hlocal : MirrorRepo.isLocalUrl opts.mirrorBaseUrl
  · rw [if_neg hne, if_pos hlocal]
    constructor
    · rintro ⟨found, m, hrun⟩ hroot
      obtain ⟨path, t, hpath, -⟩ := bind_ok_iff.mp hrun
      rw [liftExcept_ok_iff, localPath_ok_iff] at hpath
      exact hpath.1.1 ((baseurl_short_iff mirror hlocal).mpr ⟨hroot.base, hroot.repo⟩)
    · intro hroot
      have hlong : ¬ (MirrorRepo.baseurl opts mirror).toList.length < 7 := by
        intro hshort
        obtain ⟨hbase, hrepo⟩ := (baseurl_short_iff mirror hlocal).mp hshort
        exact hroot ⟨hlocal, hbase, hne, hrepo⟩
      have hpath := localPath_ok_iff.mpr ⟨hlong, rfl⟩
      have hlift := liftExcept_ok_iff.mpr (And.intro hpath (Eq.refl n))
      exact ⟨_, _, bind_of_ok hlift _⟩
  · rw [if_neg hne, if_neg hlocal]
    exact ⟨fun _ hroot => hlocal hroot.isLocal, fun _ => ⟨_, _, rfl⟩⟩

namespace MirrorRepo

theorem getLast?_baseurl_ne (opts : Options) (paths : RepoPaths) :
    (baseurl opts paths).toList.getLast? ≠ some '/' := by
  intro h
  obtain ⟨l, hl⟩ := List.getLast?_eq_some_iff.mp h
  exact Text.not_mem_of_rstrip_eq_append hl (mem_slash_iff.mpr rfl)

theorem baseurl_append_slashes (opts : Options) (paths : RepoPaths) :
    ∃ n, (baseurl opts paths).toList ++ List.replicate n '/' =
      (opts.mirrorBaseUrl ++ "/" ++ paths.repo).toList := by
  obtain ⟨cut, hcut, hslash⟩ :=
    Text.exists_rstrip_append (opts.mirrorBaseUrl ++ "/" ++ paths.repo) "/"
  have hall : cut = List.replicate cut.length '/' :=
    List.eq_replicate_of_mem fun c hc => mem_slash_iff.mp (hslash c hc)
  exact ⟨cut.length, by rw [← hall, ← hcut, baseurl]⟩

/-- The precondition of `localPath` is respected, with all that follows from it, exactly when
there is something other than slashes after `file://`. -/
theorem respectsPrecondition_iff (opts : Options) (paths : RepoPaths) :
    RespectsPrecondition opts paths ↔ ¬ NamesRoot opts paths := by
  constructor
  · intro h
    exact (exists_ok_iff (fun _ _ => false) paths 0).mp (h.returns _ 0)
  · intro hroot
    refine ⟨fun hlocal hne => ?_, fun answers n => (exists_ok_iff answers paths n).mpr hroot,
      baseurl_append_slashes opts paths, getLast?_baseurl_ne opts paths,
      (baseurl opts paths).toList, ?_, getLast?_baseurl_ne opts paths⟩
    · rw [isLocalUrl_baseurl_iff paths hlocal, baseurl_short_iff paths hlocal]
      rintro ⟨hbase, hrepo⟩
      exact hroot ⟨hlocal, hbase, hne, hrepo⟩
    · rw [repomd, String.toList_append]
      rfl

/-- The root directory as the mirror, and as the path in it: the address is `file:`. -/
theorem not_respectsPrecondition_root :
    ¬ RespectsPrecondition { mirrorBaseUrl := "file:///" } { repo := "/" } := by
  intro h
  exact absurd (h.isLocal (by decide) (by decide)) (by decide)

end MirrorRepo

theorem choose_ok_iff (answers : Answers) (mirror upstream : RepoPaths) (n : ℕ) :
    (∃ choice m, choose opts answers mirror upstream false n = .ok choice m) ↔
      ¬ LocalRootMirror opts mirror := by
  unfold choose
  simp only [Bool.false_eq_true, if_false]
  by_cases hd : opts.disableMirrors
  · rw [if_pos hd]
    refine ⟨fun _ hroot => ?_, fun _ => ⟨_, _, rfl⟩⟩
    exact absurd hroot.enabled (by simp [hd])
  · rw [if_neg hd, localRootMirror_iff, and_iff_right (Bool.eq_false_iff.mpr hd),
      ← exists_ok_iff answers mirror n]
    constructor
    · rintro ⟨choice, m, hrun⟩
      obtain ⟨found, t, hfound, -⟩ := bind_ok_iff.mp hrun
      exact ⟨found, t, hfound⟩
    · rintro ⟨found, t, hfound⟩
      rw [bind_of_ok hfound]
      cases found with
      | true => exact ⟨_, _, rfl⟩
      | false => exact ⟨_, _, rfl⟩

theorem upstream_gpgkey_ok (answers : Answers) (paths : RepoPaths) (n : ℕ) :
    ∃ key m, UpstreamRepo.gpgkey answers paths n = .ok key m := by
  unfold UpstreamRepo.gpgkey
  cases paths.gpgkey with
  | none => exact ⟨_, _, rfl⟩
  | some url => exact ⟨_, _, rfl⟩

/-- A configuration becomes a repository of its own name and identifier, or its
mirror throws. -/
theorem fromConfig_ok_iff (answers : Answers) (config : RepoConfig) (n : ℕ) :
    (∃ repo m, fromConfig opts answers config n = .ok repo m) ↔
      ¬ LocalRootMirror opts config.mirror := by
  rw [← choose_ok_iff answers config.mirror config.upstream n]
  constructor
  · rintro ⟨repo, m, hrun⟩
    obtain ⟨choice, t, hchoice, -⟩ := bind_ok_iff.mp hrun
    exact ⟨choice, t, hchoice⟩
  · rintro ⟨choice, t, hchoice⟩
    rw [fromConfig, assemble, bind_of_ok hchoice]
    cases choice with
    | UPSTREAM =>
      obtain ⟨key, m, hkey⟩ := upstream_gpgkey_ok answers config.upstream t
      obtain ⟨key', m', hkey'⟩ := upstream_gpgkey_ok answers config.upstream m
      dsimp only
      rw [bind_of_ok hkey, bind_of_ok hkey']
      exact ⟨_, _, rfl⟩
    | MIRROR => exact ⟨_, _, rfl⟩

/-- The repository has the names of its configuration, is disabled, and is located at the mirror
or upstream. -/
theorem fromConfig_ok {config : RepoConfig} {n m : ℕ} {repo : RPMRepository}
    (h : fromConfig opts answers config n = .ok repo m) :
    (repo.id = config.repoId.id ∧ repo.group = config.repoId.id ∧
      repo.name = config.repoId.name) ∧
    repo.enabled = false ∧
      (repo.baseurl = some (UpstreamRepo.baseurl config.upstream) ∨
        repo.baseurl = some (MirrorRepo.baseurl opts config.mirror)) := by
  obtain ⟨choice, t, -, hrest⟩ := bind_ok_iff.mp h
  cases choice with
  | UPSTREAM =>
    obtain ⟨_, _, -, hrest⟩ := bind_ok_iff.mp hrest
    obtain ⟨_, _, -, hrest⟩ := bind_ok_iff.mp hrest
    obtain ⟨rfl, -⟩ := EStateM.Result.ok.inj hrest
    exact ⟨⟨rfl, rfl, rfl⟩, rfl, .inl rfl⟩
  | MIRROR =>
    obtain ⟨rfl, -⟩ := EStateM.Result.ok.inj hrest
    exact ⟨⟨rfl, rfl, rfl⟩, rfl, .inr rfl⟩

end Cloyster

import Cloyster.Models.Load

/-! What loading an answer file can throw. Texts that are missing, no addresses or no
numbers are reported in several ways, but never with the exception that stands for a bad
answer file: that one comes from the steps after loading. -/

namespace Cloyster.AnswerFile

open Lib

variable {boost : Boost} {opts : Options}

/-! ### Other exceptions only -/

/-- The exception is of another kind, if there is one. -/
def NeverThrows {α : Type} (type : ExnType) (x : Except Exn α) : Prop :=
  ∀ e, x = .error e → e.type ≠ type

section

variable {α β : Type} {type : ExnType}

theorem neverThrows_ok (a : α) : NeverThrows type (.ok a) := by
  intro e h
  exact absurd h (by simp)

theorem neverThrows_error {e : Exn} (h : e.type ≠ type) :
    NeverThrows type (.error e : Except Exn α) := by
  intro e' he
  obtain rfl := Except.error.inj he
  exact h

theorem neverThrows_bind {x : Except Exn α} {f : α → Except Exn β} (hx : NeverThrows type x)
    (hf : ∀ a, NeverThrows type (f a)) : NeverThrows type (x >>= f) := by
  intro e h
  cases x with
  | error e' =>
    obtain rfl := Except.error.inj h
    exact hx _ rfl
  | ok a => exact hf a e h

theorem neverThrows_mapM {f : α → Except Exn β} (h : ∀ a, NeverThrows type (f a)) (l : List α) :
    NeverThrows type (l.mapM f) := by
  induction l with
  | nil => exact neverThrows_ok _
  | cons a l ih =>
    rw [List.mapM_cons]
    exact neverThrows_bind (h a) fun b => neverThrows_bind ih fun bs => neverThrows_ok _

theorem neverThrows_numError {fn : String} (x : Except Text.NumError α)
    (hinvalid : ExnType.invalidArgument ≠ type) (hrange : ExnType.outOfRange ≠ type) :
    NeverThrows type (x.mapError (Exn.ofNumError fn)) := by
  cases x with
  | ok a => exact neverThrows_ok a
  | error e =>
    apply neverThrows_error
    cases e
    · exact hinvalid
    · exact hrange

theorem neverThrows_explainInvalid {message : String → String} {x : Except Exn α}
    (hinvalid : ExnType.invalidArgument ≠ type) (h : NeverThrows type x) :
    NeverThrows type (explainInvalid message x) := by
  unfold explainInvalid
  split
  · exact neverThrows_error hinvalid
  · exact h

theorem neverThrows_dereference (hread : ExnType.undefinedBehaviour ≠ type) (o : Option α) :
    NeverThrows type (dereference o) := by
  cases o with
  | none => exact neverThrows_error hread
  | some a => exact neverThrows_ok a

theorem neverThrows_throwIf {p : Prop} [Decidable p] {e : Exn} (h : e.type ≠ type) :
    NeverThrows type (throwIf p e) := by
  unfold throwIf
  split_ifs
  · exact neverThrows_error h
  · exact neverThrows_ok ()

end

/-! ### The loaders -/

section

variable (file : KeyFile) (group key : String)

theorem neverThrows_getString : NeverThrows .answerfileValidation (file.getString group key) := by
  unfold KeyFile.getString
  split
  · exact neverThrows_ok _
  · exact neverThrows_error (show ExnType.runtimeError ≠ _ by decide)

theorem neverThrows_getStringOr (text : String) :
    NeverThrows .answerfileValidation (file.getStringOr group key text) := by
  unfold KeyFile.getStringOr
  split_ifs
  · exact neverThrows_ok _
  · exact neverThrows_error (show ExnType.runtimeError ≠ _ by decide)

theorem neverThrows_getStringOpt :
    NeverThrows .answerfileValidation (file.getStringOpt group key) := by
  unfold KeyFile.getStringOpt
  split_ifs
  · exact neverThrows_ok _
  · exact neverThrows_error (show ExnType.keyFileError ≠ _ by decide)

theorem neverThrows_convert (text : String) :
    NeverThrows .answerfileValidation (convertStringToAddress boost text) := by
  unfold convertStringToAddress
  split
  · exact neverThrows_ok _
  · exact neverThrows_error (by decide)

theorem neverThrows_loadNetwork (network : AFNetwork) :
    NeverThrows .answerfileValidation (loadNetwork boost file group network) := by
  have haddress (name : String) (destination : Option Address) : NeverThrows .answerfileValidation
      (convertNetworkAddressAndValidate boost file group name destination) := by
    refine neverThrows_bind (neverThrows_getStringOpt file group name) fun o => ?_
    cases o with
    | none => exact neverThrows_ok _
    | some text =>
      refine neverThrows_bind ?_ fun a => neverThrows_ok _
      exact neverThrows_explainInvalid (by decide) (neverThrows_convert text)
  refine neverThrows_bind (neverThrows_getString file _ _) fun _ => ?_
  refine neverThrows_bind (haddress _ _) fun _ => ?_
  refine neverThrows_bind (neverThrows_getStringOr file _ _ _) fun _ => ?_
  refine neverThrows_bind (haddress _ _) fun _ => ?_
  refine neverThrows_bind (neverThrows_getStringOr file _ _ _) fun _ => ?_
  refine neverThrows_bind (haddress _ _) fun _ => ?_
  exact neverThrows_bind (neverThrows_getStringOpt file _ _) fun _ => neverThrows_ok _

theorem neverThrows_loadNode : NeverThrows .answerfileValidation (loadNode boost file group) := by
  have hif (p : Prop) [Decidable p] (name : String) :
      NeverThrows .answerfileValidation (getStringIf file p group name) := by
    unfold getStringIf
    split_ifs
    · rw [map_eq_pure_bind]
      exact neverThrows_bind (neverThrows_getString file group name) fun _ => neverThrows_ok _
    · exact neverThrows_ok _
  have hip : NeverThrows .answerfileValidation (loadStartIp boost file group) := by
    refine neverThrows_bind (neverThrows_getStringOpt file group _) fun o => ?_
    cases o with
    | none => exact neverThrows_ok _
    | some text =>
      refine neverThrows_bind ?_ fun a => neverThrows_ok _
      exact neverThrows_explainInvalid (by decide) (neverThrows_convert text)
  unfold loadNode
  iterate 3 refine neverThrows_bind (hif _ _) fun _ => ?_
  refine neverThrows_bind hip fun _ => ?_
  iterate 10 refine neverThrows_bind (neverThrows_getStringOr file _ _ _) fun _ => ?_
  exact neverThrows_ok _

theorem neverThrows_validateNode (generic node : AFNode) :
    NeverThrows .answerfileValidation (validateNode generic node) := by
  have hattribute {α : Type} (isEmpty : α → Bool) (name : String) (own other : Option α) :
      NeverThrows .answerfileValidation (validateAttribute isEmpty "node" name own other) := by
    refine neverThrows_bind (neverThrows_dereference (by decide) own) fun a => ?_
    split_ifs
    · exact neverThrows_ok _
    · refine neverThrows_bind (neverThrows_dereference (by decide) other) fun b => ?_
      split_ifs
      · exact neverThrows_error (by simp)
      · exact neverThrows_ok _
  unfold validateNode validateText
  iterate 10 refine neverThrows_bind (hattribute _ _ _ _) fun _ => ?_
  exact neverThrows_ok _

theorem neverThrows_nodeHostname (generic node : AFNode) (counter : ℕ) :
    NeverThrows .answerfileValidation (nodeHostname generic node counter) := by
  refine neverThrows_bind (neverThrows_dereference (by decide) _) fun own => ?_
  split_ifs
  · refine neverThrows_bind (neverThrows_dereference (by decide) _) fun pre => ?_
    refine neverThrows_bind (neverThrows_throwIf (by simp)) fun _ => ?_
    refine neverThrows_bind (neverThrows_dereference (by decide) _) fun padding => ?_
    refine neverThrows_bind (neverThrows_throwIf (by simp)) fun _ => ?_
    refine neverThrows_bind (neverThrows_numError _ (by decide) (by decide)) fun width => ?_
    unfold formatHostname
    split_ifs
    · exact neverThrows_error (by decide)
    · exact neverThrows_ok _
  · exact neverThrows_ok _

theorem neverThrows_loadNodes (af : AnswerFile) :
    NeverThrows .answerfileValidation (loadNodes boost file af) := by
  refine neverThrows_bind (neverThrows_loadNode file "node") fun generic => ?_
  refine neverThrows_bind (neverThrows_mapM (fun nodeSection => ?_) _) fun _ => neverThrows_ok _
  refine neverThrows_bind (neverThrows_loadNode file _) fun node => ?_
  refine neverThrows_bind (neverThrows_nodeHostname generic node _) fun hostname => ?_
  exact neverThrows_explainInvalid (by decide) (neverThrows_validateNode generic _)

theorem neverThrows_loadSystemSettings (af : AnswerFile) :
    NeverThrows .answerfileValidation (loadSystemSettings opts file af) := by
  refine neverThrows_bind (neverThrows_getString file _ _) fun image => ?_
  refine neverThrows_bind (neverThrows_getString file _ _) fun distro => ?_
  split
  · split_ifs
    · exact neverThrows_ok _
    · exact neverThrows_error (show ExnType.runtimeError ≠ _ by decide)
  · refine neverThrows_bind (neverThrows_getString file _ _) fun version => ?_
    exact neverThrows_bind (neverThrows_getString file _ _) fun kernel => neverThrows_ok _

theorem neverThrows_loadPostfixSection (settings : AFPostfix) :
    NeverThrows .answerfileValidation (loadPostfixSection file settings) := by
  have hport (group : String) : NeverThrows .answerfileValidation (loadPort file group) :=
    neverThrows_bind (neverThrows_getString file _ _) fun _ =>
      neverThrows_numError _ (by decide) (by decide)
  have hsmtp (profile : Postfix.Profile) :
      NeverThrows .answerfileValidation (loadSMTP file settings.smtp profile) := by
    cases profile with
    | Local => exact neverThrows_ok _
    | Relay =>
      refine neverThrows_bind (neverThrows_getString file _ _) fun server => ?_
      exact neverThrows_bind (hport _) fun port => neverThrows_ok _
    | SASL =>
      refine neverThrows_bind (neverThrows_getString file _ _) fun server => ?_
      refine neverThrows_bind (hport _) fun port => ?_
      refine neverThrows_bind (neverThrows_getString file _ _) fun username => ?_
      exact neverThrows_bind (neverThrows_getString file _ _) fun password => neverThrows_ok _
  refine neverThrows_bind (neverThrows_getString file _ _) fun destination => ?_
  refine neverThrows_bind (neverThrows_getString file _ _) fun name => ?_
  split
  · exact neverThrows_error (show ExnType.runtimeError ≠ _ by decide)
  · refine neverThrows_bind (hsmtp _) fun smtp => ?_
    refine neverThrows_bind (neverThrows_getString file _ _) fun cert => ?_
    exact neverThrows_bind (neverThrows_getString file _ _) fun key => neverThrows_ok _

/-- The exception that stands for a bad answer file comes from later steps only. -/
theorem neverThrows_loadOptions (af : AnswerFile) :
    NeverThrows .answerfileValidation (loadOptions boost opts file af) := by
  have hstrings {α : Type} (group : String) (f : String → Except Exn α) (key : String)
      (h : ∀ text, NeverThrows .answerfileValidation (f text)) :
      NeverThrows .answerfileValidation (file.getString group key >>= f) :=
    neverThrows_bind (neverThrows_getString file group key) h
  have hnetwork (group : String) (network : AFNetwork) (put : AFNetwork → AnswerFile) :
      NeverThrows .answerfileValidation
        (loadNetwork boost file group network >>= fun loaded => .ok (put loaded)) :=
    neverThrows_bind (neverThrows_loadNetwork file group network) fun _ => neverThrows_ok _
  unfold loadOptions
  refine neverThrows_bind (hnetwork _ _ _) fun af => ?_
  refine neverThrows_bind (hnetwork _ _ _) fun af => ?_
  refine neverThrows_bind ?_ fun af => ?_
  · unfold loadApplicationNetwork
    split_ifs
    · exact neverThrows_ok _
    · exact hnetwork _ _ _
  refine neverThrows_bind (hstrings _ _ _ fun _ => hstrings _ _ _ fun _ => hstrings _ _ _ fun _ =>
    neverThrows_ok _) fun af => ?_
  refine neverThrows_bind (hstrings _ _ _ fun _ => hstrings _ _ _ fun _ => hstrings _ _ _ fun _ =>
    neverThrows_ok _) fun af => ?_
  refine neverThrows_bind (hstrings _ _ _ fun _ => hstrings _ _ _ fun _ => neverThrows_ok _)
    fun af => ?_
  refine neverThrows_bind (neverThrows_loadSystemSettings file af) fun af => ?_
  refine neverThrows_bind (neverThrows_loadNodes file af) fun af => ?_
  refine neverThrows_bind ?_ fun af => ?_
  · unfold loadPostfix
    split_ifs
    · exact neverThrows_ok _
    · exact neverThrows_bind (neverThrows_loadPostfixSection file _) fun _ => neverThrows_ok _
  refine hstrings _ _ _ fun kind => ?_
  split_ifs
  · exact neverThrows_ok _
  · exact hstrings _ _ _ fun version => neverThrows_ok _

end

end Cloyster.AnswerFile

import Cloyster.Models.Hostnames

/-! The dialog for the names of the headnode. It asks until both names pass their checks. As
no check returns an error, the first answers without an empty field end it, well formed or
not, unless the hostname is thrown. -/

namespace Cloyster.PresenterHostId

open Lib Models

/-- The model, and the messages shown so far. -/
structure State where
  model : Cluster
  messages : List String := []

/-- How the dialog is left other than through the end of its loop. Without an answer the user
stays in the window or cancels, which ends the program. -/
inductive Left where
  | exception (e : Exn)
  | text (thrown : String)
  | noAnswer

abbrev DialogM := EStateM Left State

def onModel (x : Cluster.ClusterM Unit) : DialogM Unit :=
  zoom State.model (fun model state => { state with model }) (EStateM.adaptExcept .exception x)

def message (text : String) : DialogM Unit :=
  modify fun state => { state with messages := state.messages ++ [text] }

/-- What is entered for the hostname and for the domain name. -/
abbrev Entries := String × String

def hasEmptyField (entries : Entries) : Bool := entries.1 = "" || entries.2 = ""

/-- A thrown text passes through. -/
def validateHostname (headnode : Server) : DialogM (Except String String) :=
  match Server.validateHostname headnode.hostname with
  | .error thrown => throw (.text thrown)
  | .ok validation => pure validation

def enter (entries : Entries) : DialogM Unit := do
  onModel (Cluster.setHostname entries.1)
  onModel (Cluster.setDomainName entries.2)

/-- Whether the loop is left. -/
def validate : DialogM Bool := do
  let headnode := (← get).model.headnode
  let hostnameValidation ← validateHostname headnode
  let fqdnValidation := Server.validateFQDN headnode.fqdn
  match hostnameValidation with
  | .error e =>
    message s!"Hostname validation error: {e}"
    return false
  | .ok _ =>
    match fqdnValidation with
    | .error e =>
      message s!"Domain validation error: {e}"
      return false
    | .ok _ => return true

/-- One round of the loop. -/
def round (entries : Entries) : DialogM Bool := do
  enter entries
  validate

/-- The loop, over the answers the user will give. `Newt::fieldMenu` shows its window again
while a field is empty. -/
def loop : List Entries → DialogM Unit
  | [] => throw .noAnswer
  | entries :: answers =>
    if hasEmptyField entries then loop answers
    else do if ← round entries then return else loop answers

/-- The dialog ends with names that are well formed, if it ends. -/
def EndsValid (answers : List Entries) (s : State) : Prop :=
  ∀ t, loop answers s = .ok () t →
    Server.ValidHostname t.model.headnode.hostname ∧ Server.ValidFQDN t.model.headnode.fqdn

/-- The answers that `Newt::fieldMenu` returns first. -/
def firstEntries (answers : List Entries) : Option Entries :=
  answers.find? fun entries => !hasEmptyField entries

/-- The model once the names are entered. -/
def entered (entries : Entries) (s : State) : State :=
  { s with model.headnode.hostname := entries.1
           model.headnode.fqdn := Cluster.fullName entries.1 entries.2 }

/-! ### Rounds -/

theorem enter_apply (entries : Entries) (s : State) :
    enter entries s = .ok () (entered entries s) := rfl

/-- Nothing but a thrown text keeps the loop from being left. -/
theorem validate_of_not_thrown {s : State} (h : ¬ Server.Thrown s.model.headnode.hostname) :
    validate s = .ok true s := by
  obtain ⟨v, hv⟩ : ∃ v, Server.validateHostname s.model.headnode.hostname = .ok (.ok v) := by
    apply (Server.validateHostname_value _).resolve_left
    rwa [Server.thrown_iff]
  obtain ⟨w, hw⟩ := Server.validateFQDN_value s.model.headnode.fqdn
  have hhostname : validateHostname s.model.headnode s = .ok (.ok v) s := by
    rw [validateHostname, hv]
    rfl
  unfold validate
  rw [bind_of_ok (get_apply s), bind_of_ok hhostname, hw]
  rfl

theorem validate_of_thrown {s : State} (h : Server.Thrown s.model.headnode.hostname) :
    ∃ thrown, validate s = .error (.text thrown) s := by
  obtain ⟨thrown, hthrown⟩ := (Server.thrown_iff _).mpr h
  have hhostname : validateHostname s.model.headnode s = .error (.text thrown) s := by
    rw [validateHostname, hthrown]
    rfl
  refine ⟨thrown, ?_⟩
  unfold validate
  rw [bind_of_ok (get_apply s), bind_of_error hhostname]

theorem round_apply (entries : Entries) (s : State) :
    round entries s = validate (entered entries s) := by
  rw [round, bind_of_ok (enter_apply entries s)]

/-! ### The loop -/

theorem loop_of_empty {entries : Entries} (hempty : hasEmptyField entries)
    (answers : List Entries) : loop (entries :: answers) = loop answers := by
  rw [loop, if_pos hempty]

theorem loop_of_thrown {entries : Entries} (hempty : ¬ hasEmptyField entries)
    (h : Server.Thrown entries.1) (answers : List Entries) (s : State) :
    ∃ thrown, loop (entries :: answers) s = .error (.text thrown) (entered entries s) := by
  obtain ⟨thrown, hthrown⟩ := validate_of_thrown (s := entered entries s) h
  rw [← round_apply] at hthrown
  refine ⟨thrown, ?_⟩
  rw [loop, if_neg hempty, bind_of_error hthrown]

theorem loop_of_not_thrown {entries : Entries} (hempty : ¬ hasEmptyField entries)
    (h : ¬ Server.Thrown entries.1) (answers : List Entries) (s : State) :
    loop (entries :: answers) s = .ok () (entered entries s) := by
  have hround := validate_of_not_thrown (s := entered entries s) h
  rw [← round_apply] at hround
  rw [loop, if_neg hempty, bind_of_ok hround]
  rfl

/-- The first answers without an empty field decide. -/
theorem endsValid_iff (answers : List Entries) (s : State) :
    EndsValid answers s ↔ ∀ entries ∈ firstEntries answers,
      Server.Thrown entries.1 ∨ Server.ValidHostname entries.1 ∧
        Server.ValidFQDN (Cluster.fullName entries.1 entries.2) := by
  unfold EndsValid firstEntries
  induction answers with
  | nil => simp [loop]
  | cons entries answers ih =>
    by_cases hempty : hasEmptyField entries
    · rw [loop_of_empty hempty, List.find?_cons_of_neg (by simp [hempty])]
      exact ih
    · rw [List.find?_cons_of_pos (by simp [hempty])]
      by_cases hthrown : Server.Thrown entries.1
      · obtain ⟨text, htext⟩ := loop_of_thrown hempty hthrown answers s
        simp [htext, hthrown]
      · rw [loop_of_not_thrown hempty hthrown]
        simp [hthrown, entered]

/-- The checks keep their promise for well-formed names, and the loop does when the first
answers are well formed or the hostname is thrown. -/
theorem checksNames_iff (hostname fqdn : String) (answers : List Entries) (s : State) :
    (Server.ChecksHostname hostname ↔ Server.ValidHostname hostname) ∧
    (Server.ChecksFQDN fqdn ↔ Server.ValidFQDN fqdn) ∧
    (EndsValid answers s ↔ ∀ entries ∈ firstEntries answers,
      Server.Thrown entries.1 ∨ Server.ValidHostname entries.1 ∧
        Server.ValidFQDN (Cluster.fullName entries.1 entries.2)) :=
  ⟨Server.checksHostname_iff hostname, Server.checksFQDN_iff fqdn, endsValid_iff answers s⟩

/-- A hostname that is thrown, one whose error becomes the value, a full name of one label,
and a dialog that ends with an underscore in the hostname. -/
theorem not_checksNames :
    Server.validateHostname "-a" = .error "Invalid hostname" ∧ ¬ Server.ChecksHostname "-a" ∧
    Server.validateHostname "bad_name" = .ok (.ok "Hostname can only have alphanumerics") ∧
    ¬ Server.ChecksHostname "bad_name" ∧
    Server.validateFQDN "nodot" = .ok "Invalid FQDN format" ∧ ¬ Server.ChecksFQDN "nodot" ∧
    ¬ EndsValid [("bad_name", "cluster")] { model := { headnode := {} } } := by
  have hhyphen : ¬ Server.ValidHostname "-a" := fun h => h.label.head rfl
  have hunderscore : ¬ Server.ValidHostname "bad_name" := by
    intro h
    exact absurd (h.label.chars '_' (by decide)) (by decide)
  have honeLabel : ¬ Server.ValidFQDN "nodot" := fun h => absurd h.two (by decide)
  refine ⟨by decide +kernel, ?_, by decide +kernel, ?_, by decide +kernel, ?_, ?_⟩
  · rwa [Server.checksHostname_iff]
  · rwa [Server.checksHostname_iff]
  · rwa [Server.checksFQDN_iff]
  · intro h
    have hthrown : ¬ Server.Thrown "bad_name" := by
      rw [← Server.thrown_iff]
      rintro ⟨text, htext⟩
      have hvalue : Server.validateHostname "bad_name" =
          .ok (.ok "Hostname can only have alphanumerics") := by decide +kernel
      exact absurd (htext.symm.trans hvalue) (by simp)
    have hempty : ¬ hasEmptyField ("bad_name", "cluster") := by decide
    exact hunderscore (h _ (loop_of_not_thrown hempty hthrown _ _)).1

end Cloyster.PresenterHostId

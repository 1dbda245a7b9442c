import Cloyster.Models.Network
import Cloyster.Services.Timezone

/-! The setters for lists of servers, over sequences of calls. All four overloads add what they
are given to what is stored, so a list is stored as it was given only where there was none
before. The overload that reads a text also takes commas as ends and drops the spaces. -/

namespace Cloyster

open Lib

/-! ### Name servers -/

namespace Network

/-- A call of `setNameservers`, by overload. -/
inductive NameserversCall where
  | addresses (nameservers : List Address)
  | strings (nameservers : List String)

variable (text : AddressText) (network : Network) (call : NameserversCall)

def NameserversCall.run : NetworkM Unit :=
  match call with
  | .addresses nameservers => setNameservers nameservers
  | .strings nameservers => setNameserversText text nameservers

/-- The list that is given, if all of it can be read. -/
def NameserversCall.given : Except Exn (List Address) :=
  match call with
  | .addresses nameservers => .ok nameservers
  | .strings nameservers => makeAddresses text nameservers

def NameserversCall.after : Network := finalState (call.run text network)

/-- The getter returns the list of the call, or what it did before when the call throws. -/
structure StoresNameservers : Prop where
  stores : ∀ nameservers, call.given text = .ok nameservers →
    (call.after text network).nameservers = nameservers
  throws : ∀ e, call.given text = .error e → call.after text network = network

/-- A list that can be read comes to an object that has none. -/
def NameserversUnset : Prop :=
  (∃ nameservers, call.given text = .ok nameservers) → network.nameservers = []

variable {text network call}

theorem NameserversCall.after_of_given {nameservers : List Address}
    (h : call.given text = .ok nameservers) : call.after text network =
      { network with nameservers := network.nameservers ++ nameservers } := by
  cases call with
  | addresses servers =>
    obtain rfl := Except.ok.inj h
    rfl
  | strings servers =>
    rw [after, run, setNameserversText, show makeAddresses text servers = _ from h]
    rfl

theorem NameserversCall.after_of_error {e : Exn} (h : call.given text = .error e) :
    call.after text network = network := by
  cases call with
  | addresses servers => cases h
  | strings servers =>
    rw [after, run, setNameserversText, show makeAddresses text servers = _ from h]
    rfl

theorem storesNameservers_iff (text : AddressText) (network : Network)
    (call : NameserversCall) :
    StoresNameservers text network call ↔ NameserversUnset text network call := by
  constructor
  · rintro hstores ⟨nameservers, hgiven⟩
    have happend := hstores.stores nameservers hgiven
    rw [NameserversCall.after_of_given hgiven] at happend
    exact List.append_left_eq_self.mp happend
  · intro hunset
    refine ⟨fun nameservers hgiven => ?_, fun e => NameserversCall.after_of_error⟩
    rw [NameserversCall.after_of_given hgiven, hunset ⟨nameservers, hgiven⟩, List.nil_append]

end Network

/-! ### Time servers -/

namespace Timezone

/-- A call of `setTimeservers`, by overload. Every text is a list joined with commas. -/
inductive TimeserversCall where
  | vector (timeservers : List String)
  | string (timeservers : List String)

def joined (timeservers : List String) : String := ",".intercalate timeservers

variable (timezone : Timezone) (call : TimeserversCall)

def TimeserversCall.after : Timezone :=
  match call with
  | .vector timeservers => timezone.setTimeservers timeservers
  | .string timeservers => timezone.setTimeserversText (joined timeservers)

def TimeserversCall.given : List String :=
  match call with
  | .vector timeservers => timeservers
  | .string timeservers => timeservers

/-- The getter returns the list of the call. -/
def StoresTimeservers : Prop := (call.after timezone).timeservers = call.given

/-- The list comes back from the text. -/
def Plain (timeservers : List String) : Prop :=
  timeservers ≠ [] ∧ ∀ timeserver ∈ timeservers, ',' ∉ timeserver.toList ∧ ' ' ∉ timeserver.toList

def TimeserversUnset : Prop :=
  timezone.timeservers = [] ∧
    match call with
    | .vector _ => True
    | .string timeservers => Plain timeservers

/-- What is read of the text. -/
def pieces (timeservers : List String) : List String :=
  ((joined timeservers).toList.splitOn ',').map removeSpaces

variable {timezone call} {timeservers : List String}

theorem setTimeserversText_joined (timezone : Timezone) (timeservers : List String) :
    timezone.setTimeserversText (joined timeservers) =
      timezone.setTimeservers (pieces timeservers) := by
  rw [setTimeserversText, InputStream.linesWhileGood_eq]
  rfl

theorem removeSpaces_toList {s : String} (h : ' ' ∉ s.toList) : removeSpaces s.toList = s := by
  rw [removeSpaces, List.filter_eq_self.mpr, String.ofList_toList]
  intro c hc
  exact decide_eq_true fun he => h (he ▸ hc)

theorem pieces_of_plain (h : Plain timeservers) : pieces timeservers = timeservers := by
  obtain ⟨hne, hplain⟩ := h
  have hcomma : ∀ l ∈ timeservers.map String.toList, ',' ∉ l := by
    simpa using fun s hs => (hplain s hs).1
  rw [pieces, joined, String.toList_intercalate, show ",".toList = [','] from rfl,
    List.splitOn_intercalate _ hcomma (by simpa using hne), List.map_map]
  calc timeservers.map (removeSpaces ∘ String.toList)
      = timeservers.map id :=
        List.map_congr_left fun s hs => removeSpaces_toList (hplain s hs).2
    _ = timeservers := List.map_id _

/-- No piece has a comma or a space. -/
theorem plain_of_mem_pieces {s : String} (h : s ∈ pieces timeservers) :
    ',' ∉ s.toList ∧ ' ' ∉ s.toList := by
  obtain ⟨l, hl, rfl⟩ := List.mem_map.mp h
  rw [removeSpaces, String.toList_ofList]
  constructor
  · exact fun hc => Lines.not_mem_of_mem_splitOn hl (List.mem_of_mem_filter hc)
  · simp

theorem length_le_count_intercalate (ls : List (List Char)) :
    ls.length ≤ ([','].intercalate ls).count ',' + 1 := by
  induction ls with
  | nil => simp
  | cons l ls ih =>
    cases ls with
    | nil => simp
    | cons m ls =>
      rw [List.intercalate_cons_cons, List.count_append, List.count_append,
        List.count_singleton_self, List.length_cons]
      omega

/-- There are at least as many pieces as servers. -/
theorem length_le_length_pieces (timeservers : List String) :
    timeservers.length ≤ (pieces timeservers).length := by
  have hlength := length_le_count_intercalate (timeservers.map String.toList)
  rw [pieces, List.length_map, Lines.length_splitOn, joined, String.toList_intercalate]
  simpa using hlength

theorem append_pieces_eq_iff (stored timeservers : List String) :
    stored ++ pieces timeservers = timeservers ↔ stored = [] ∧ Plain timeservers := by
  constructor
  · intro h
    have hlength := congrArg List.length h
    have hle := length_le_length_pieces timeservers
    rw [List.length_append] at hlength
    obtain rfl : stored = [] := List.length_eq_zero_iff.mp (by omega)
    rw [List.nil_append] at h
    refine ⟨rfl, ?_, fun s hs => plain_of_mem_pieces (h.symm ▸ hs)⟩
    rintro rfl
    -- the empty text is read as one empty server
    exact absurd h (by decide)
  · rintro ⟨rfl, hplain⟩
    rw [List.nil_append, pieces_of_plain hplain]

theorem storesTimeservers_iff (timezone : Timezone) (call : TimeserversCall) :
    StoresTimeservers timezone call ↔ TimeserversUnset timezone call := by
  cases call with
  | vector timeservers =>
    rw [StoresTimeservers, TimeserversUnset, and_true]
    exact List.append_left_eq_self
  | string timeservers =>
    rw [StoresTimeservers, TimeserversCall.after, setTimeserversText_joined]
    exact append_pieces_eq_iff timezone.timeservers timeservers

/-- The overloads store the same list exactly when it comes back from the text. -/
theorem setTimeserversText_joined_iff (timezone : Timezone) (timeservers : List String) :
    timezone.setTimeserversText (joined timeservers) = timezone.setTimeservers timeservers ↔
      Plain timeservers := by
  have hpieces := append_pieces_eq_iff [] timeservers
  rw [List.nil_append, eq_self_iff_true, true_and] at hpieces
  rw [setTimeserversText_joined, ← hpieces]
  constructor
  · intro h
    exact List.append_cancel_left (congrArg Timezone.timeservers h)
  · intro h
    rw [h]

end Timezone

open Network Timezone in
/-- Over every sequence of calls, the getters return the list of the last call after each of them
exactly when each finds nothing stored, and a text comes to the same as its list exactly when
the list is not empty and has no comma or space in it. -/
theorem serversReplaced_iff (text : AddressText) (network : Network)
    (nameservers : List NameserversCall) (timezone : Timezone)
    (timeservers : List TimeserversCall) :
    (Along (fun network call => call.after text network) (StoresNameservers text) network
        nameservers ↔
      Along (fun network call => call.after text network) (NameserversUnset text) network
        nameservers) ∧
    (Along (fun timezone call => call.after timezone) StoresTimeservers timezone timeservers ↔
      Along (fun timezone call => call.after timezone) TimeserversUnset timezone timeservers) ∧
    ∀ servers, timezone.setTimeserversText (joined servers) = timezone.setTimeservers servers ↔
      Plain servers := by
  refine ⟨?_, ?_, setTimeserversText_joined_iff timezone⟩
  · exact along_iff (I := fun _ => True)
      (fun network call _ => storesNameservers_iff text network call)
      (fun _ _ _ _ => trivial) trivial nameservers
  · exact along_iff (I := fun _ => True)
      (fun timezone call _ => storesTimeservers_iff timezone call)
      (fun _ _ _ _ => trivial) trivial timeservers

open Timezone in
/-- An empty list clears nothing. -/
theorem not_serversReplaced_empty :
    ¬ Along (fun timezone call => call.after timezone) StoresTimeservers {}
      [TimeserversCall.vector ["0.br.pool.ntp.org"], .vector []] := by
  rintro ⟨-, hempty, -⟩
  exact absurd hempty (by unfold StoresTimeservers; decide)

end Cloyster

import Cloyster.Lib.Loop

/-! The menus of the text interface. A menu is shown again until a button leaves it, so it is a
loop over what is pressed. The menu that collects a list keeps the items and, beside them, the
array that Newt shows, which has a terminator after the last item. -/

namespace Cloyster.Newt

open Lib

/-- How a menu is left other than with an answer. `abort` ends the program. -/
inductive Left where
  | exits
  | undefined
  deriving DecidableEq

/-- What a menu comes to, or nothing while it is still shown. -/
abbrev Answer (α : Type) := Option (Except Left α)

/-- The array ends with a null pointer. -/
def convertToNewtList (s : List String) : List (Option String) := s.map some ++ [none]

/-! ### Choosing from a list -/

inductive ListButton where
  | f12 | ok | cancel | help
  deriving DecidableEq

/-- The button, and what `newtWinMenu` writes into the selector. -/
structure ListPress where
  button : ListButton
  selector : ℤ

/-- `tempStrings[selector]`. -/
def itemAt (items : List String) (selector : ℤ) : Except Left String :=
  match items[selector.toNat]? with
  | some item => if 0 ≤ selector then .ok item else .error .undefined
  | none => .error .undefined

def listRound (items : List String) (press : ListPress) (_ : Unit) :
    Round Unit (Except Left String) :=
  match press.button with
  | .f12 | .ok => .leave (itemAt items press.selector)
  | .cancel => .leave (.error .exits)
  | .help => .go ()

def listMenu (items : List String) (presses : List ListPress) : Answer String :=
  Round.feed (listRound items) presses ()

theorem mem_of_listMenu {items : List String} {presses : List ListPress} {name : String}
    (h : listMenu items presses = some (.ok name)) : name ∈ items := by
  induction presses with
  | nil => exact absurd h (by simp [listMenu, Round.feed])
  | cons press presses ih =>
    rw [listMenu, Round.feed, listRound] at h
    have hitem : itemAt items press.selector = .ok name → name ∈ items := by
      unfold itemAt
      intro hitem
      split at hitem
      · rename_i item hget
        split_ifs at hitem
        obtain rfl := Except.ok.inj hitem
        exact List.mem_of_getElem? hget
      · exact absurd hitem (by simp)
    cases hbutton : press.button with
    | f12 => exact hitem (by simpa [hbutton] using h)
    | ok => exact hitem (by simpa [hbutton] using h)
    | cancel => exact absurd h (by simp [hbutton])
    | help => exact ih (by simpa [hbutton, listMenu] using h)

/-! ### Filling in fields -/

/-- The button, and what the fields hold. -/
structure FieldPress (n : ℕ) where
  button : ListButton
  values : Vector String n

/-- The fields are shown again while one of them is empty. -/
def fieldRound {n : ℕ} (press : FieldPress n) (_ : Unit) :
    Round Unit (Except Left (Vector String n)) :=
  match press.button with
  | .f12 | .ok => if "" ∈ press.values.toList then .go () else .leave (.ok press.values)
  | .cancel => .leave (.error .exits)
  | .help => .go ()

def fieldMenu {n : ℕ} (presses : List (FieldPress n)) : Answer (Vector String n) :=
  Round.feed fieldRound presses ()

/-! ### Collecting a list -/

/-- Add comes with the items that the callback appends and with what it returns. -/
inductive Button where
  | f12 | ok | cancel
  | add (appended : List String) (ret : Bool)
  | remove | help
  deriving DecidableEq

structure Press where
  button : Button
  selector : ℤ := 0

structure Menu where
  tempStrings : List String
  cStrings : List (Option String)

def Menu.ofItems (items : List String) : Menu := ⟨items, convertToNewtList items⟩

/-- The bound is that of the array, and what is erased is an item. -/
def collectRound (press : Press) (menu : Menu) : Round Menu (Except Left (List String)) :=
  match press.button with
  | .f12 | .ok => .leave (.ok menu.tempStrings)
  | .cancel => .leave (.error .exits)
  | .add appended ret =>
    let tempStrings := menu.tempStrings ++ appended
    if ret then .go (.ofItems tempStrings) else .leave (.ok tempStrings)
  | .remove =>
    if 0 ≤ press.selector ∧ press.selector.toNat < menu.cStrings.length then
      if press.selector.toNat < menu.tempStrings.length then
        .go (.ofItems (menu.tempStrings.eraseIdx press.selector.toNat))
      -- erasing the end of a vector
      else .leave (.error .undefined)
    else .go menu
  | .help => .go menu

def collectListMenu (items : List String) (presses : List Press) : Answer (List String) :=
  Round.feed collectRound presses (.ofItems items)

/-! ### What the buttons are for -/

def Press.leaves (press : Press) : Bool :=
  match press.button with
  | .f12 | .ok | .cancel => true
  | .add _ ret => !ret
  | .remove | .help => false

def edit (items : List String) (press : Press) : List String :=
  match press.button with
  | .add appended _ => items ++ appended
  | .remove => items.eraseIdx press.selector.toNat
  | .f12 | .ok | .cancel | .help => items

/-- Up to the press that leaves the menu. -/
def taken : List Press → List Press
  | [] => []
  | press :: presses => if press.leaves then [press] else press :: taken presses

/-- A menu with the items alone. -/
def intended (press : Press) (items : List String) :
    Round (List String) (Except Left (List String)) :=
  if press.leaves then
    .leave (if press.button = .cancel then .error .exits else .ok (edit items press))
  else .go (edit items press)

/-- Only items are erased, and the list that is returned is the first one with the additions and
the removals made in their order. -/
structure Collects (items : List String) (presses : List Press) : Prop where
  inRange : collectListMenu items presses ≠ some (.error .undefined)
  returns : ∀ l, collectListMenu items presses = some (.ok l) →
    l = (taken presses).foldl edit items

/-- The selector is the index of an item, or 0 when there are none. -/
def Selects (items : List String) (press : Press) : Prop :=
  if items = [] then press.selector = 0
  else 0 ≤ press.selector ∧ press.selector.toNat < items.length

/-- Remove is not pressed on an empty list. -/
def Removable (items : List String) (press : Press) : Prop :=
  press.button = .remove → items ≠ []

variable {items l : List String} {press : Press} {presses : List Press}

theorem length_convertToNewtList (s : List String) :
    (convertToNewtList s).length = s.length + 1 := by
  simp [convertToNewtList]

/-- On a list with items the two bounds agree on what the selector can be. -/
theorem collectRound_of_removable (items : List String) (press : Press)
    (hselects : Selects items press) (hremovable : Removable items press) :
    collectRound press (.ofItems items) = (intended press items).map .ofItems := by
  unfold collectRound intended edit Press.leaves
  cases hbutton : press.button with
  | f12 => rfl
  | ok => rfl
  | cancel => rfl
  | help => rfl
  | add appended ret => cases ret <;> rfl
  | remove =>
    have hne := hremovable hbutton
    rw [Selects, if_neg hne] at hselects
    obtain ⟨hnonneg, hlt⟩ := hselects
    have hbound : press.selector.toNat < (Menu.ofItems items).cStrings.length := by
      rw [Menu.ofItems, length_convertToNewtList]
      omega
    dsimp only
    rw [if_pos ⟨hnonneg, hbound⟩]
    exact if_pos hlt

/-- The terminator lets the selector of an empty list through. -/
theorem collectRound_of_not_removable (items : List String) (press : Press)
    (hselects : Selects items press) (hremovable : ¬ Removable items press) :
    collectRound press (.ofItems items) = .leave (.error .undefined) := by
  obtain ⟨hbutton, rfl⟩ : press.button = .remove ∧ items = [] := by
    rw [Removable] at hremovable
    push Not at hremovable
    exact hremovable
  rw [Selects, if_pos rfl] at hselects
  rw [collectRound, hbutton, hselects]
  rfl

theorem feed_intended_ne_undefined (items : List String) (presses : List Press) :
    Round.feed intended presses items ≠ some (.error .undefined) := by
  induction presses generalizing items with
  | nil => simp [Round.feed]
  | cons press presses ih =>
    rw [Round.feed, intended]
    split_ifs with hleaves hcancel
    · simp
    · simp
    · exact ih _

theorem eq_foldl_of_feed_intended (h : Round.feed intended presses items = some (.ok l)) :
    l = (taken presses).foldl edit items := by
  induction presses generalizing items with
  | nil => exact absurd h (by simp [Round.feed])
  | cons press presses ih =>
    rw [Round.feed, intended] at h
    rw [taken]
    split_ifs at h ⊢ with hleaves hcancel
    · cases h
    · simpa using h.symm
    · exact ih h

/-- A menu does what its buttons are for exactly when Remove is never pressed on an empty
list. -/
theorem collects_iff (hselects : Round.Reached intended Selects presses items) :
    Collects items presses ↔ Round.Reached intended Removable presses items := by
  constructor
  · intro h
    by_contra hremovable
    exact h.inRange (Round.feed_eq_bad collectRound_of_removable collectRound_of_not_removable
      hselects hremovable)
  · intro hremovable
    have hfeed : collectListMenu items presses = Round.feed intended presses items :=
      Round.feed_eq_of_reached collectRound_of_removable hselects hremovable
    refine ⟨?_, fun l hl => eq_foldl_of_feed_intended ?_⟩
    · rw [hfeed]
      exact feed_intended_ne_undefined items presses
    · rw [← hfeed, hl]

/-- A time server is added and the first one removed. -/
theorem collects_servers : Collects ["0.br.pool.ntp.org"]
    [⟨.add ["1.br.pool.ntp.org"] true, 0⟩, ⟨.remove, 0⟩, ⟨.ok, 0⟩] := by
  refine (collects_iff ?_).mpr ?_ <;>
    simp [Round.Reached, intended, Press.leaves, edit, Selects, Removable]

/-- Remove is pressed once more than there are items. -/
theorem not_collects_empty : ¬ Collects ["0.br.pool.ntp.org"] [⟨.remove, 0⟩, ⟨.remove, 0⟩] :=
  fun h => h.inRange rfl

end Cloyster.Newt

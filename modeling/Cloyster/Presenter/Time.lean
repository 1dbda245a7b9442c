import Cloyster.Services.Timezone
import Cloyster.View.Newt

/-! The dialog for the time. The zone is put together again from the area and the location that
are chosen, with a slash between them. -/

namespace Cloyster.PresenterTime

open Lib Newt Timezone

/-- How the dialog is left other than through its end: a menu that is left so, or one that is
still shown. -/
abbrev TimeM := EStateM (Option Left) Timezone

def answer {α : Type} : Answer α → TimeM α
  | some (.ok a) => pure a
  | some (.error left) => throw (some left)
  | none => throw none

/-- A set: the areas of the multimap without repetition. -/
def timezoneAreas (availableTimezones : Std.TreeMap String (List String)) : List String :=
  availableTimezones.keys

/-- The range of entries with this area. -/
def timezoneLocations (availableTimezones : Std.TreeMap String (List String))
    (timezoneArea : String) : List String :=
  (availableTimezones[timezoneArea]?).getD []

def defaultServers : List String := ["0.br.pool.ntp.org"]

def presenterTime (areas locations : List ListPress) (servers : List Press) : TimeM Unit := do
  let availableTimezones := (← get).availableTimezones
  let selectedTimezoneLocationArea ← answer (listMenu (timezoneAreas availableTimezones) areas)
  modify (setTimezoneArea selectedTimezoneLocationArea)
  let timezoneArea := (← get).timezoneArea
  let selectedTimezoneLocation ←
    answer (listMenu (timezoneLocations availableTimezones timezoneArea) locations)
  modify (setTimezone s!"{timezoneArea}/{selectedTimezoneLocation}")
  let timeservers ← answer (collectListMenu defaultServers servers)
  modify (setTimeservers timeservers)

/-- The area and the location under which the name is filed can be chosen, and whoever chooses
them sets the time zone to the name. -/
structure SetsName (opts : Options) (output : List String) (name : String) : Prop where
  area : areaOf name ∈ timezoneAreas (fetchAvailableTimezones opts output)
  location : locationOf name ∈
    timezoneLocations (fetchAvailableTimezones opts output) (areaOf name)
  sets : ∀ areas locations servers,
    listMenu (timezoneAreas (fetchAvailableTimezones opts output)) areas =
      some (.ok (areaOf name)) →
    listMenu (timezoneLocations (fetchAvailableTimezones opts output) (areaOf name)) locations =
      some (.ok (locationOf name)) →
    (finalState (presenterTime areas locations servers (construct opts output))).timezone = name

variable {opts : Options} {output : List String} {name : String} {areas locations : List ListPress}
  {items : List String}

/-! ### What can be chosen -/

theorem exists_listMenu_of_mem (h : name ∈ items) :
    ∃ presses, listMenu items presses = some (.ok name) := by
  obtain ⟨i, hi⟩ := List.mem_iff_getElem?.mp h
  refine ⟨[⟨.ok, i⟩], ?_⟩
  simp [listMenu, Round.feed, listRound, itemAt, hi]

theorem areaOf_mem (hdry : opts.dryRun = false) (hname : name ∈ output) :
    areaOf name ∈ timezoneAreas (fetchAvailableTimezones opts output) := by
  rw [timezoneAreas, Std.TreeMap.mem_keys, fetchAvailableTimezones, if_neg (by simp [hdry]),
    Grouping.mem_appendAll]
  exact Or.inr ⟨name, hname, rfl⟩

theorem locationOf_mem (hdry : opts.dryRun = false) (hname : name ∈ output) :
    locationOf name ∈
      timezoneLocations (fetchAvailableTimezones opts output) (areaOf name) := by
  rw [timezoneLocations, fetchAvailableTimezones, if_neg (by simp [hdry]),
    Grouping.getD_appendAll, List.mem_append]
  exact Or.inr (List.mem_map_of_mem (by simp [hname]))

/-! ### What is set -/

theorem answer_apply {α : Type} {menu : Answer α} {a : α} (h : menu = some (.ok a))
    (timezone : Timezone) : answer menu timezone = .ok a timezone := by
  rw [h]
  rfl

theorem answer_ok {α : Type} {menu : Answer α} {a : α} {timezone timezone' : Timezone}
    (h : answer menu timezone = .ok a timezone') : menu = some (.ok a) := by
  rcases menu with _ | left | b
  · exact absurd h (by simp [answer])
  · exact absurd h (by simp [answer])
  · rw [(EStateM.Result.ok.inj h).1]

/-- The time servers leave the time zone as it is. -/
theorem timezone_servers (servers : List Press) (timezone : Timezone) :
    (finalState ((do
      let timeservers ← answer (collectListMenu defaultServers servers)
      modify (setTimeservers timeservers) : TimeM Unit) timezone)).timezone =
        timezone.timezone := by
  rw [bind_apply]
  rcases collectListMenu defaultServers servers with _ | left | timeservers <;> rfl

theorem timezone_presenterTime (servers : List Press)
    (harea : listMenu (timezoneAreas (fetchAvailableTimezones opts output)) areas =
      some (.ok (areaOf name)))
    (hlocation : listMenu (timezoneLocations (fetchAvailableTimezones opts output) (areaOf name))
      locations = some (.ok (locationOf name))) :
    (finalState (presenterTime areas locations servers (construct opts output))).timezone =
      areaOf name ++ "/" ++ locationOf name := by
  rw [presenterTime, bind_of_ok (get_apply _), construct, bind_of_ok (answer_apply harea _),
    bind_of_ok (modify_apply _ _), bind_of_ok (get_apply _), setTimezoneArea,
    bind_of_ok (answer_apply hlocation _), bind_of_ok (modify_apply _ _), timezone_servers]
  rfl

/-- A name without a slash is its own area and its own location. -/
theorem not_setsName_of_not_mem (hslash : '/' ∉ name.toList) : ¬ SetsName opts output name := by
  intro h
  obtain ⟨areas, hareas⟩ := exists_listMenu_of_mem h.area
  obtain ⟨locations, hlocations⟩ := exists_listMenu_of_mem h.location
  have hset := h.sets areas locations [] hareas hlocations
  rw [timezone_presenterTime [] hareas hlocations, areaOf_of_not_mem hslash,
    locationOf_of_not_mem hslash] at hset
  have hlength := congrArg String.length hset
  simp only [String.length_append] at hlength
  have hone : "/".length = 1 := rfl
  omega

/-- A name of the list is set by choosing its area and its location exactly when it has a
slash. -/
theorem setsName_iff (hdry : opts.dryRun = false) (hname : name ∈ output) :
    SetsName opts output name ↔ '/' ∈ name.toList := by
  constructor
  · intro h
    by_contra hslash
    exact not_setsName_of_not_mem hslash h
  · intro hslash
    refine ⟨areaOf_mem hdry hname, locationOf_mem hdry hname, ?_⟩
    intro areas locations servers hareas hlocations
    rw [timezone_presenterTime servers hareas hlocations, areaOf_append_locationOf hslash]

theorem setsName_iff_sao_paulo :
    SetsName {} ["America/Sao_Paulo", "UTC"] "America/Sao_Paulo" :=
  (setsName_iff rfl (by simp)).mpr (by decide)

/-- The zone is set to `UTC/UTC`. -/
theorem not_setsName_utc : ¬ SetsName {} ["America/Sao_Paulo", "UTC"] "UTC" :=
  not_setsName_of_not_mem (by decide)

end Cloyster.PresenterTime

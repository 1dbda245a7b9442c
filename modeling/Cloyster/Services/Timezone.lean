import Cloyster.Basic
import Cloyster.Lib.Grouping
import Cloyster.Lib.InputStream

/-! The time zone and the time servers of the cluster. The zones of the system are filed by area,
up to the first slash of their names. Names are paths below the directory of the zones. -/

namespace Cloyster

open Lib

structure Timezone where
  timezone : String := ""
  timezoneArea : String := ""
  /-- A multimap: each area with its locations in the order in which they came. -/
  availableTimezones : Std.TreeMap String (List String) := ∅
  timeservers : List String := []

namespace Timezone

/-- `tz.substr(0, tz.find('/'))`. -/
def areaOf (tz : String) : String := String.ofList (tz.toList.takeWhile (· ≠ '/'))

/-- `tz.substr(tz.find('/') + 1)`, all of it when there is no slash. -/
def locationOf (tz : String) : String := Text.afterFirst '/' tz

/-- The output is what `timedatectl list-timezones --no-pager` prints. -/
def fetchAvailableTimezones (opts : Options) (output : List String) :
    Std.TreeMap String (List String) :=
  if opts.dryRun then ∅ else Grouping.appendAll areaOf locationOf ∅ output

def construct (opts : Options) (output : List String) : Timezone where
  availableTimezones := fetchAvailableTimezones opts output

def setTimezone (tz : String) (timezone : Timezone) : Timezone := { timezone with timezone := tz }

def setTimezoneArea (tz : String) (timezone : Timezone) : Timezone :=
  { timezone with timezoneArea := tz }

/-- The servers are added to those already there. -/
def setTimeservers (timeservers : List String) (timezone : Timezone) : Timezone :=
  { timezone with timeservers := timezone.timeservers ++ timeservers }

def removeSpaces (substring : List Char) : String := String.ofList (substring.filter (· ≠ ' '))

/-- The overload that reads a text up to each comma. -/
def setTimeserversText (timeservers : String) (timezone : Timezone) : Timezone :=
  let stream : InputStream Char := ⟨timeservers.toList, false, false⟩
  { timezone with
    timeservers := timezone.timeservers ++ (stream.linesWhileGood ',').map removeSpaces }

/-! ### Names of zones -/

theorem areaOf_append_locationOf {tz : String} (h : '/' ∈ tz.toList) :
    areaOf tz ++ "/" ++ locationOf tz = tz := by
  obtain ⟨l, r, htz, hl⟩ := List.eq_append_cons_of_mem h
  rw [areaOf, locationOf, Text.afterFirst, if_pos h, htz, Lines.takeWhile_append_cons hl,
    Lines.dropWhile_append_cons hl, ← String.toList_inj, htz]
  simp

theorem areaOf_of_not_mem {tz : String} (h : '/' ∉ tz.toList) : areaOf tz = tz := by
  rw [areaOf, List.takeWhile_eq_self_iff.mpr, String.ofList_toList]
  intro c hc
  exact decide_eq_true fun he => h (he ▸ hc)

theorem locationOf_of_not_mem {tz : String} (h : '/' ∉ tz.toList) : locationOf tz = tz := by
  rw [locationOf, Text.afterFirst, if_neg h]

end Timezone

end Cloyster

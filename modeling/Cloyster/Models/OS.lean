import Cloyster.Basic

/-! Operating systems: distribution, version and architecture. Both constructors
set the architecture and the family; the platform and the distribution stay
unset when `/etc/os-release` does not name them. Versions are `unsigned`, so
what `stoul` reads is taken modulo `2 ^ 32`. -/

namespace Cloyster

open Lib

/-- An enumeration whose values are read and shown under their own names. -/
class NamedEnum (α : Type) where
  values : List α
  name : α → String

/-- `enums::ofStringOpt` with `Case::Insensitive`. -/
def ofStringInsensitive (α : Type) [NamedEnum α] (s : String) : Option α :=
  (NamedEnum.values : List α).find? fun a => Text.lower (NamedEnum.name a) == Text.lower s

namespace OS

inductive Arch where
  | x86_64 | ppc64le
  deriving DecidableEq, Repr

inductive Family where
  | Linux | Darwin
  deriving DecidableEq, Repr

inductive Platform where
  | el8 | el9 | el10
  deriving DecidableEq, Repr

inductive Distro where
  | RHEL | OL | Rocky | AlmaLinux
  deriving DecidableEq, Repr

inductive PackageType where
  | RPM | DEB
  deriving DecidableEq, Repr

instance : NamedEnum Arch where
  values := [.x86_64, .ppc64le]
  name
    | .x86_64 => "x86_64"
    | .ppc64le => "ppc64le"

instance : NamedEnum Distro where
  values := [.RHEL, .OL, .Rocky, .AlmaLinux]
  name
    | .RHEL => "RHEL"
    | .OL => "OL"
    | .Rocky => "Rocky"
    | .AlmaLinux => "AlmaLinux"

end OS

structure OS where
  arch : OS.Arch := .x86_64
  family : OS.Family := .Linux
  platform : Option OS.Platform := none
  distro : Option OS.Distro := none
  kernel : String := ""
  majorVersion : ℕ := 0
  minorVersion : ℕ := 0
  deriving DecidableEq

namespace OS

def getDistro (os : OS) : Except Exn Distro :=
  match os.distro with
  | some distro => .ok distro
  | none => .error ⟨.badVariantAccess, "std::get: variant is valueless"⟩

theorem getDistro_ok_iff {os : OS} {distro : Distro} :
    os.getDistro = .ok distro ↔ os.distro = some distro := by
  unfold getDistro
  cases os.distro <;> simp

def getPackageType (os : OS) : Except Exn PackageType := do
  match ← os.getDistro with
  | .RHEL | .OL | .Rocky | .AlmaLinux => return .RPM

def getVersion (os : OS) : String := s!"{os.majorVersion}.{os.minorVersion}"

def setDistro (distro : String) : EStateM Exn OS Unit := do
  match ofStringInsensitive Distro distro with
  | some d => modify fun os => { os with distro := some d }
  | none => throw (.runtimeError s!"Unsupported Distribution: {distro}")

def setMajorVersion (majorVersion : ℕ) : EStateM Exn OS Unit := do
  if majorVersion < 8 then
    throw (.runtimeError "Unsupported release: Major version must be 8 or greater.")
  modify fun os => { os with majorVersion }

def setVersion (version : String) : EStateM Exn OS Unit := do
  let chars := version.toList
  let major := String.ofList (chars.takeWhile (· ≠ '.'))
  let n ← liftExcept ((Text.stoul major).mapError (.ofNumError "stoul"))
  setMajorVersion (n % 2 ^ 32)
  -- the major version is set by now, whatever is thrown next
  if '.' ∉ chars then
    throw (.runtimeError ("Unexpected value for system.version (in answerfile.ini). " ++
      s!"Expected M.N format, e.g., 9.5. Value found instead: {version}"))
  let minor := String.ofList ((chars.dropWhile (· ≠ '.')).tail)
  let n ← liftExcept ((Text.stoul minor).mapError (.ofNumError "stoul"))
  modify fun os => { os with minorVersion := n % 2 ^ 32 }

end OS

end Cloyster

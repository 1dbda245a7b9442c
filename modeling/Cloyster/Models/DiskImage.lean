import Cloyster.Models.Cluster

/-! Disk images over sequences of calls. The distribution is stored as soon as the file name is
recognised, before the checksum is verified and before the path is stored, and an image that is
not recognised leaves it as it was. -/

namespace Cloyster.Models.DiskImage

open Lib

variable {opts : Options} {host : Host} {path : String} {image image' : DiskImage} {u : Unit}

theorem imageDistro_isOk : ∀ name ∈ knownImageFilename, (imageDistro name).isOk := by decide

theorem isKnownImage_ok {known : Bool} (h : isKnownImage path image = .ok known image') :
    (known = true ∧ Text.filename path ∈ knownImageFilename ∧ image'.distro.isSome) ∨
      (known = false ∧ Text.filename path ∉ knownImageFilename ∧ image' = image) := by
  unfold isKnownImage at h
  split_ifs at h with hknown
  · simp only [bind_ok_iff, liftExcept_ok_iff, modify_ok_iff] at h
    obtain ⟨distro, image, ⟨-, rfl⟩, _, _, rfl, hreturn⟩ := h
    obtain ⟨rfl, rfl⟩ := EStateM.Result.ok.inj hreturn
    exact .inl ⟨rfl, hknown, rfl⟩
  · obtain ⟨rfl, rfl⟩ := EStateM.Result.ok.inj h
    exact .inr ⟨rfl, hknown, rfl⟩

/-- An image of another name is taken as it is, without a distribution. -/
theorem setPath_distro (h : setPath opts host path image = .ok u image')
    (hnone : image.distro = none) :
    image'.distro.isSome ↔ Text.filename path ∈ knownImageFilename := by
  simp only [setPath, bind_ok_iff, refuseIf_ok_iff] at h
  obtain ⟨_, image, ⟨-, rfl⟩, known, image₁, hknown, h⟩ := h
  obtain ⟨rfl, hmem, hdistro⟩ | ⟨rfl, hmem, rfl⟩ := isKnownImage_ok hknown
  · simp only [if_true, bind_ok_iff, liftExcept_ok_iff, refuseIf_ok_iff, modify_ok_iff] at h
    obtain ⟨_, image₁, ⟨-, rfl⟩, _, _, ⟨-, rfl⟩, rfl⟩ := h
    exact iff_of_true hdistro hmem
  · simp only [if_false, Bool.false_eq_true, bind_ok_iff, refuseIf_ok_iff, modify_ok_iff,
      pure_apply] at h
    obtain ⟨_, _, hpure, _, _, ⟨-, rfl⟩, rfl⟩ := h
    obtain ⟨-, rfl⟩ := EStateM.Result.ok.inj hpure
    refine iff_of_false ?_ hmem
    simp [hnone]

/-! ### One call -/

/-- The distribution that a file name stands for, if it is that of a known image. -/
def namedDistro (path : String) : Option OS.Distro :=
  if Text.filename path ∈ knownImageFilename then (imageDistro (Text.filename path)).toOption
  else none

theorem isKnownImage_known (h : Text.filename path ∈ knownImageFilename) :
    isKnownImage path image = .ok true { image with distro := namedDistro path } := by
  obtain ⟨distro, hdistro⟩ := isOk_iff.mp (imageDistro_isOk _ h)
  rw [isKnownImage, if_pos h, namedDistro, if_pos h, hdistro]
  rfl

theorem isKnownImage_unknown (h : Text.filename path ∉ knownImageFilename) :
    isKnownImage path image = .ok false image := by
  rw [isKnownImage, if_neg h]
  rfl

theorem setPath_not_iso (h : Text.extension (Text.filename path) ≠ ".iso") :
    setPath opts host path image =
      .error (.runtimeError "Disk Image must have ISO extension") image := by
  rw [setPath, refuseIf, if_pos h]
  rfl

theorem extension_known : ∀ name ∈ knownImageFilename, Text.extension name = ".iso" := by decide

theorem setPath_unknown (hiso : Text.extension (Text.filename path) = ".iso")
    (h : Text.filename path ∉ knownImageFilename) :
    setPath opts host path image = .ok () { image with path } := by
  rw [setPath, refuseIf, if_neg (not_not.mpr hiso), bind_of_ok (pure_apply _ _),
    bind_of_ok (isKnownImage_unknown h)]
  rfl

theorem setPath_verified (h : Text.filename path ∈ knownImageFilename)
    (hverified : hasVerifiedChecksum opts host path = .ok true) :
    setPath opts host path image = .ok () ⟨path, namedDistro path⟩ := by
  rw [setPath, refuseIf, if_neg (not_not.mpr (extension_known _ h)), bind_of_ok (pure_apply _ _),
    bind_of_ok (isKnownImage_known h), if_pos rfl, hverified]
  rfl

/-- A corrupt image is refused, with its distribution stored. -/
theorem setPath_not_verified (image : DiskImage) (h : Text.filename path ∈ knownImageFilename)
    (hverified : hasVerifiedChecksum opts host path ≠ .ok true) :
    ∃ e, setPath opts host path image = .error e { image with distro := namedDistro path } := by
  rw [setPath, refuseIf, if_neg (not_not.mpr (extension_known _ h)), bind_of_ok (pure_apply _ _),
    bind_of_ok (isKnownImage_known h), if_pos rfl]
  cases hcase : hasVerifiedChecksum opts host path with
  | error e => exact ⟨e, rfl⟩
  | ok verified =>
    cases verified with
    | true => exact absurd hcase hverified
    | false => exact ⟨_, rfl⟩

/-! ### Sequences of calls -/

/-- A call, with what the machine answers while it runs. -/
abbrev Call := Host × String

/-- What a call leaves, whether it returns or throws. -/
def after (opts : Options) (image : DiskImage) (call : Call) : DiskImage :=
  finalState (setPath opts call.1 call.2 image)

/-- The distribution is that of the stored path. -/
def Agrees (image : DiskImage) : Prop := image.distro = namedDistro image.path

/-- A call that throws changes nothing, and the distribution stored after it is that of the path
stored after it. -/
def KeepsTrack (opts : Options) (image : DiskImage) (call : Call) : Prop :=
  (∀ e image', setPath opts call.1 call.2 image = .error e image' → image' = image) ∧
    Agrees (after opts image call)

/-- A known image is verified or of the distribution stored already, and an unknown one comes
when none is stored. -/
def InOrder (opts : Options) (image : DiskImage) (call : Call) : Prop :=
  Text.extension (Text.filename call.2) = ".iso" →
    if Text.filename call.2 ∈ knownImageFilename then
      hasVerifiedChecksum opts call.1 call.2 = .ok true ∨ image.distro = namedDistro call.2
    else image.distro = none

theorem keepsTrack_iff (image : DiskImage) (call : Call) (h : Agrees image) :
    KeepsTrack opts image call ↔ InOrder opts image call := by
  obtain ⟨host, path⟩ := call
  unfold KeepsTrack InOrder after
  by_cases hiso : Text.extension (Text.filename path) = ".iso"
  · rw [forall_prop_of_true hiso]
    by_cases hknown : Text.filename path ∈ knownImageFilename
    · rw [if_pos hknown]
      by_cases hverified : hasVerifiedChecksum opts host path = .ok true
      · rw [setPath_verified hknown hverified]
        simp [hverified, Agrees, finalState]
      · obtain ⟨e, hthrow⟩ := setPath_not_verified image hknown hverified
        rw [hthrow]
        constructor
        · rintro ⟨hsame, -⟩
          exact .inr (congrArg distro (hsame e _ rfl)).symm
        · rintro (hcase | hcase)
          · exact absurd hcase hverified
          · rw [← hcase]
            refine ⟨fun e' image' hrun => ?_, h⟩
            exact (EStateM.Result.error.inj hrun).2.symm
    · rw [if_neg hknown, setPath_unknown hiso hknown]
      simp [Agrees, finalState, namedDistro, hknown]
  · rw [setPath_not_iso hiso]
    refine iff_of_true ⟨fun e' image' hrun => ?_, h⟩ fun hcase => absurd hcase hiso
    exact (EStateM.Result.error.inj hrun).2.symm

/-- Over every sequence of calls on a new image, every call keeps track exactly when every call
comes in order. -/
theorem keepsTrack_along_iff (opts : Options) (calls : List Call) :
    Along (after opts) (KeepsTrack opts) {} calls ↔ Along (after opts) (InOrder opts) {} calls :=
  along_iff keepsTrack_iff (fun _ _ _ hkeep => hkeep.2) (by rfl) calls

/-- A machine on which the checksum of every file is wrong. -/
def corrupt : Host := { checksum := fun _ => .ok "" }

/-- A corrupt image is refused on a new object, and its distribution stays. -/
theorem not_keepsTrack_corrupt :
    ¬ Along (after {}) (KeepsTrack {}) {} [(corrupt, "/root/Rocky-9.5-x86_64-dvd.iso")] := by
  rintro ⟨⟨-, hagrees⟩, -⟩
  unfold Agrees at hagrees
  exact absurd hagrees (by decide +kernel)

end Cloyster.Models.DiskImage

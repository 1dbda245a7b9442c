import Cloyster.Basic
import Cloyster.Lib.InputStream
import Cloyster.Lib.Loop

/-! Checksums of files. The file is read into a buffer of the chunk size, and each full buffer
is handed to the hash inside the loop; what a short read leaves is handed over after it. GLib's
hash is a parameter. It is streaming: only the bytes count, not how they were handed over. -/

namespace Cloyster.Files

open Lib

/-- `Glib::Checksum` with SHA-256: a new hash, `update` and `get_string`. -/
structure GChecksum (σ : Type) where
  new : σ
  update : σ → List UInt8 → σ
  getString : σ → String

structure GChecksum.Streaming {σ : Type} (glib : GChecksum σ) : Prop where
  update_nil : ∀ s, glib.update s [] = s
  update_append : ∀ s l r, glib.update (glib.update s l) r = glib.update s (l ++ r)

variable {σ : Type} (glib : GChecksum σ)

/-- `checksum(const std::string& data)`. -/
def checksumData (data : List UInt8) : String := glib.getString (glib.update glib.new data)

/-- The variables of the loop. The buffer keeps the size it was made with. -/
structure ChunkState (σ : Type) where
  file : InputStream UInt8
  buffer : List UInt8
  gcount : ℕ := 0
  checksum : σ

/-- `file.read(buffer.data(), buffer.size())`. A short read leaves the end of the buffer. -/
def ChunkState.read (s : ChunkState σ) : ChunkState σ :=
  let (bytes, file) := s.file.read s.buffer.length
  { s with file, buffer := bytes ++ s.buffer.drop bytes.length, gcount := bytes.length }

/-- `checksum.update(buffer.data(), bytesRead)`. -/
def ChunkState.update (s : ChunkState σ) : ChunkState σ :=
  { s with checksum := glib.update s.checksum (s.buffer.take s.gcount) }

/-- The condition of the loop, with its reading, and the body. -/
def chunkRound (s : ChunkState σ) : Round (ChunkState σ) (ChunkState σ) :=
  if s.read.file.failbit then .leave s.read else .go (s.read.update glib)

/-- What comes after the loop. -/
def finish (s : ChunkState σ) : String :=
  glib.getString (if s.gcount > 0 then s.update glib else s).checksum

/-- `checksum(path, chunkSize)` on what opening the file gave, or nothing when more rounds are
needed than `fuel`. -/
def checksum (fuel : ℕ) (content : Option (List UInt8)) (chunkSize : ℕ) :
    Option (Except Exn String) :=
  match content with
  -- a `filesystem_error` without a code
  | none => some (.error ⟨.systemError, "Failed to open file"⟩)
  | some input =>
    (Round.run (chunkRound glib) fuel
      { file := ⟨input, false, false⟩
        buffer := List.replicate chunkSize 0
        checksum := glib.new }).map fun s => .ok (finish glib s)

variable {s : ChunkState σ} {input : List UInt8}

/-! ### One round -/

theorem chunkRound_full (hfile : s.file = ⟨input, false, false⟩)
    (hle : s.buffer.length ≤ input.length) :
    ∃ t, chunkRound glib s = .go t ∧ t.file = ⟨input.drop s.buffer.length, false, false⟩ ∧
      t.buffer.length = s.buffer.length ∧
      t.checksum = glib.update s.checksum (input.take s.buffer.length) := by
  refine ⟨s.read.update glib, ?_, ?_, ?_, ?_⟩ <;>
    simp only [chunkRound, ChunkState.read, ChunkState.update, hfile, InputStream.read_of_le hle]
  · rfl
  · simp [hle]
  · rw [List.take_left]

theorem chunkRound_short (hfile : s.file = ⟨input, false, false⟩)
    (hlt : input.length < s.buffer.length) :
    ∃ t, chunkRound glib s = .leave t ∧ t.gcount = input.length ∧
      t.buffer.take t.gcount = input ∧ t.checksum = s.checksum := by
  refine ⟨s.read, ?_, ?_, ?_, ?_⟩ <;>
    simp only [chunkRound, ChunkState.read, hfile, InputStream.read_of_lt hlt]
  · rfl
  · rw [List.take_left]

variable {glib}

/-- What is left over, if anything, is handed to the hash. -/
theorem finish_eq (hstream : glib.Streaming) (hbuffer : s.buffer.take s.gcount = input)
    (hcount : s.gcount = input.length) :
    finish glib s = glib.getString (glib.update s.checksum input) := by
  unfold finish
  split_ifs with hpos
  · rw [ChunkState.update, hbuffer]
  · have hnil : input = [] := List.length_eq_zero_iff.mp (by omega)
    rw [hnil, hstream.update_nil]

/-! ### The loop -/

/-- The hash so far, with what has not been read yet, is the hash of the whole. -/
structure HashOf (glib : GChecksum σ) (chunkSize : ℕ) (data : List UInt8) (s : ChunkState σ) :
    Prop where
  size : s.buffer.length = chunkSize
  good : ∃ input, s.file = ⟨input, false, false⟩ ∧
    glib.update s.checksum input = glib.update glib.new data

theorem HashOf.round (hstream : glib.Streaming) {chunkSize : ℕ} (hpos : 1 ≤ chunkSize)
    {data : List UInt8} (hs : HashOf glib chunkSize data s) :
    (chunkRound glib s).Post
      (fun t => HashOf glib chunkSize data t ∧ t.file.input.length < s.file.input.length)
      (finish glib · = checksumData glib data) := by
  obtain ⟨hsize, input, hfile, hhash⟩ := hs
  by_cases hle : s.buffer.length ≤ input.length
  · obtain ⟨t, hgo, hfile', hsize', hcheck⟩ := chunkRound_full glib hfile hle
    rw [hgo]
    refine ⟨⟨hsize'.trans hsize, _, hfile', ?_⟩, ?_⟩
    · rw [hcheck, hstream.update_append, List.take_append_drop, hhash]
    · rw [hfile', hfile, List.length_drop]
      dsimp only
      omega
  · obtain ⟨t, hleave, hcount, hbuffer, hcheck⟩ := chunkRound_short glib hfile (by omega)
    rw [hleave]
    show finish glib t = checksumData glib data
    rw [finish_eq hstream hbuffer hcount, hcheck, hhash]
    rfl

theorem ends_chunkRound (hstream : glib.Streaming) {chunkSize : ℕ} (hpos : 1 ≤ chunkSize)
    {data : List UInt8} (hs : HashOf glib chunkSize data s) :
    ∃ t, Round.Ends (chunkRound glib) s t ∧ finish glib t = checksumData glib data :=
  Round.ends_of_measure (HashOf glib chunkSize data) _ (fun s => s.file.input.length)
    (fun _ hs => hs.round hstream hpos) hs

/-- The checksum of a file that can be opened is that of its content, whatever the size of
the chunks. -/
theorem checksum_eq_checksumData (hstream : glib.Streaming) (content : List UInt8)
    {chunkSize : ℕ} (hpos : 1 ≤ chunkSize) :
    ∃ n, ∀ fuel ≥ n,
      checksum glib fuel (some content) chunkSize = some (.ok (checksumData glib content)) := by
  obtain ⟨t, ⟨n, hrun⟩, hfinish⟩ := ends_chunkRound hstream hpos
    (s := { file := ⟨content, false, false⟩
            buffer := List.replicate chunkSize 0
            checksum := glib.new })
    ⟨List.length_replicate, content, rfl, rfl⟩
  refine ⟨n, fun fuel hfuel => ?_⟩
  simp only [checksum, Round.run_mono hfuel hrun, Option.map_some, hfinish]

/-- SHA-256 on two texts. The state is the bytes so far. -/
def sha256Sample : GChecksum (List UInt8) where
  new := []
  update s bytes := s ++ bytes
  getString bytes :=
    if bytes = [] then "e3b0c44298fc1c149afbf4c8996fb92427ae41e4649b934ca495991b7852b855"
    else if bytes = [97, 98, 99] then
      "ba7816bf8f01cfea414140de5dae2223b00361a396177a9cb410ff61f20015ad"
    else ""

theorem checksum_eq_checksumData_abc :
    ∃ n, ∀ fuel ≥ n, checksum sha256Sample fuel (some [97, 98, 99]) 2 =
      some (.ok "ba7816bf8f01cfea414140de5dae2223b00361a396177a9cb410ff61f20015ad") :=
  checksum_eq_checksumData ⟨List.append_nil, List.append_assoc⟩ [97, 98, 99] (by decide)

/-- Reading nothing never fails, so chunks of size 0 go on for ever. -/
theorem checksum_chunkSize_zero (glib : GChecksum σ) (fuel : ℕ) (content : List UInt8) :
    checksum glib fuel (some content) 0 = none := by
  have hnever (t : ChunkState σ) : ¬ Round.Ends (chunkRound glib)
      { file := ⟨content, false, false⟩, buffer := [], checksum := glib.new } t := by
    refine Round.not_ends_of_invariant
      (fun s => s.buffer = [] ∧ ∃ input, s.file = ⟨input, false, false⟩) ?_ ⟨rfl, content, rfl⟩
    rintro s ⟨hbuffer, input, hfile⟩
    obtain ⟨t, hgo, hfile', hsize, -⟩ :=
      chunkRound_full glib hfile (by simp [hbuffer])
    rw [hbuffer, List.length_nil, List.length_eq_zero_iff] at hsize
    exact ⟨t, hgo, hsize, _, hfile'⟩
  cases hrun : Round.run (chunkRound glib) fuel
      { file := ⟨content, false, false⟩, buffer := [], checksum := glib.new } with
  | none => simp [checksum, hrun]
  | some t => exact absurd ⟨fuel, hrun⟩ (hnever t)

end Cloyster.Files

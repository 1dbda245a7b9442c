import Cloyster.Models.Filled

/-! The processors of a server. The numbers of cores and threads are stored beside the numbers
they are products of. Two constructors check the products as they are computed, modulo the
size of a word; the default constructor and the setters check nothing. -/

namespace Cloyster.Models.CPU

open Lib

/-- The product of two `std::size_t`. -/
def mulSize (m n : ℕ) : ℕ := m * n % 2 ^ 64

def checkTopology (cpu : CPU) : Except Exn Unit := do
  throwIf (cpu.sockets = 0 ∨ cpu.cores = 0 ∨ cpu.threads = 0 ∨ cpu.coresPerSocket = 0 ∨
    cpu.threadsPerCore = 0) (.runtimeError "Invalid number of processors")
  throwIf (cpu.threads ≠ mulSize cpu.cores cpu.threadsPerCore)
    (.runtimeError "Total number of threads is not valid")
  throwIf (cpu.cores ≠ mulSize cpu.sockets cpu.coresPerSocket)
    (.runtimeError "Total number of cores is not valid")

def construct (sockets cores threads coresPerSocket threadsPerCore : ℕ) : Except Exn CPU := do
  let cpu : CPU := { sockets, cores, threads, coresPerSocket, threadsPerCore }
  cpu.checkTopology
  return cpu

/-- The constructor that computes the two totals. -/
def constructTotals (sockets coresPerSocket threadsPerCore : ℕ) : Except Exn CPU :=
  construct sockets (mulSize coresPerSocket sockets)
    (mulSize (mulSize threadsPerCore coresPerSocket) sockets) coresPerSocket threadsPerCore

/-! ### Runs -/

/-- A constructor with its arguments, which are machine words. -/
inductive Constructor where
  | detect
  | totals (sockets coresPerSocket threadsPerCore : UInt64)
  | all (sockets cores threads coresPerSocket threadsPerCore : UInt64)

def Constructor.run : Constructor → Except Exn CPU
  | .detect => .ok {}
  | .totals sockets coresPerSocket threadsPerCore =>
    constructTotals sockets.toNat coresPerSocket.toNat threadsPerCore.toNat
  | .all sockets cores threads coresPerSocket threadsPerCore =>
    construct sockets.toNat cores.toNat threads.toNat coresPerSocket.toNat threadsPerCore.toNat

inductive Setter where
  | setSockets (sockets : UInt64)
  | setCores (cores : UInt64)
  | setThreads (threads : UInt64)
  | setCoresPerSocket (coresPerSocket : UInt64)
  | setThreadsPerCore (threadsPerCore : UInt64)

def set (cpu : CPU) : Setter → CPU
  | .setSockets sockets => { cpu with sockets := sockets.toNat }
  | .setCores cores => { cpu with cores := cores.toNat }
  | .setThreads threads => { cpu with threads := threads.toNat }
  | .setCoresPerSocket coresPerSocket => { cpu with coresPerSocket := coresPerSocket.toNat }
  | .setThreadsPerCore threadsPerCore => { cpu with threadsPerCore := threadsPerCore.toNat }

/-- The totals are the products. -/
@[mk_iff]
structure Consistent (cpu : CPU) : Prop where
  cores : cpu.cores = cpu.sockets * cpu.coresPerSocket
  threads : cpu.threads = cpu.cores * cpu.threadsPerCore

/-- The number of threads that the arguments come to fits into a word. -/
def Constructor.Fits : Constructor → Prop
  | .detect => True
  | .totals sockets coresPerSocket threadsPerCore
  | .all sockets _ _ coresPerSocket threadsPerCore =>
    sockets.toNat * coresPerSocket.toNat * threadsPerCore.toNat < 2 ^ 64

/-- The setter writes what is there, or a factor of a product that is 0 anyway. -/
def Harmless (cpu : CPU) : Setter → Prop
  | .setSockets sockets => sockets.toNat = cpu.sockets ∨ cpu.coresPerSocket = 0
  | .setCores cores => cores.toNat = cpu.cores
  | .setThreads threads => threads.toNat = cpu.threads
  | .setCoresPerSocket coresPerSocket =>
    coresPerSocket.toNat = cpu.coresPerSocket ∨ cpu.sockets = 0
  | .setThreadsPerCore threadsPerCore =>
    threadsPerCore.toNat = cpu.threadsPerCore ∨ cpu.cores = 0

variable {cpu : CPU} {sockets cores threads coresPerSocket threadsPerCore : ℕ}

/-! ### The constructors -/

/-- What a constructor that checks has accepted. -/
theorem construct_ok (h : construct sockets cores threads coresPerSocket threadsPerCore = .ok cpu) :
    cpu = { sockets, cores, threads, coresPerSocket, threadsPerCore } ∧ threadsPerCore ≠ 0 ∧
      threads = mulSize cores threadsPerCore ∧ cores = mulSize sockets coresPerSocket := by
  simp only [construct, checkTopology, except_bind_ok_iff, throwIf_ok_iff, except_pure_ok_iff] at h
  obtain ⟨-, ⟨-, hpos, -, hthreads, hcores⟩, rfl⟩ := h
  push Not at hpos hthreads hcores
  exact ⟨rfl, hpos.2.2.2.2, hthreads, hcores⟩

theorem mulSize_eq_iff (m n : ℕ) : mulSize m n = m * n ↔ m * n < 2 ^ 64 := by
  rw [mulSize, Nat.mod_eq_iff_lt (by norm_num)]

/-- The number of threads is the larger product. -/
theorem consistent_construct_iff
    (h : construct sockets cores threads coresPerSocket threadsPerCore = .ok cpu) :
    Consistent cpu ↔ sockets * coresPerSocket * threadsPerCore < 2 ^ 64 := by
  obtain ⟨rfl, hpos, hthreads, hcores⟩ := construct_ok h
  constructor
  · rintro ⟨hc, ht⟩
    dsimp only at hc ht
    rw [← hc, ← mulSize_eq_iff, ← hthreads, ht]
  · intro hlt
    have hle : sockets * coresPerSocket ≤ sockets * coresPerSocket * threadsPerCore :=
      Nat.le_mul_of_pos_right _ (Nat.pos_of_ne_zero hpos)
    have hc : cores = sockets * coresPerSocket := by
      rw [hcores, mulSize_eq_iff]
      omega
    refine ⟨hc, ?_⟩
    dsimp only
    rw [hthreads, mulSize_eq_iff, hc]
    exact hlt

theorem consistent_run_iff {constructor : Constructor} (h : constructor.run = .ok cpu) :
    Consistent cpu ↔ constructor.Fits := by
  cases constructor with
  | detect =>
    obtain rfl := Except.ok.inj h
    exact iff_of_true ⟨rfl, rfl⟩ trivial
  | totals sockets coresPerSocket threadsPerCore => exact consistent_construct_iff h
  | all sockets cores threads coresPerSocket threadsPerCore => exact consistent_construct_iff h

/-! ### The setters -/

theorem consistent_set_iff (cpu : CPU) (setter : Setter) (h : Consistent cpu) :
    Consistent (cpu.set setter) ↔ Harmless cpu setter := by
  obtain ⟨hcores, hthreads⟩ := h
  rw [consistent_iff]
  cases setter with
  | setSockets sockets =>
    simp only [set, Harmless, hthreads, and_true]
    rw [hcores, mul_eq_mul_right_iff, eq_comm (a := cpu.sockets)]
  | setCores cores =>
    simp only [set, Harmless]
    constructor
    · exact fun h => h.1.trans hcores.symm
    · intro h
      rw [h]
      exact ⟨hcores, hthreads⟩
  | setThreads threads =>
    simp only [set, Harmless, hcores, true_and]
    rw [hthreads, hcores]
  | setCoresPerSocket coresPerSocket =>
    simp only [set, Harmless, hthreads, and_true]
    rw [hcores, mul_eq_mul_left_iff, eq_comm (a := cpu.coresPerSocket)]
  | setThreadsPerCore threadsPerCore =>
    simp only [set, Harmless, hcores, true_and]
    rw [hthreads, hcores, mul_eq_mul_left_iff, eq_comm (a := cpu.threadsPerCore)]

/-- Every state of a run is consistent exactly when the arguments of the constructor fit and no
setter changes a number that counts. -/
theorem consistent_along_iff {constructor : Constructor} (h : constructor.run = .ok cpu)
    (setters : List Setter) :
    (Consistent cpu ∧ Along set (fun cpu setter => Consistent (cpu.set setter)) cpu setters) ↔
      constructor.Fits ∧ Along set Harmless cpu setters := by
  rw [← consistent_run_iff h]
  refine and_congr_right fun hcpu => ?_
  exact along_iff consistent_set_iff (fun _ _ _ hset => hset) hcpu setters

theorem consistent_along_iff_twoSockets :
    Consistent ⟨2, 8, 16, 4, 2⟩ ∧ Along set (fun cpu setter => Consistent (cpu.set setter))
      ⟨2, 8, 16, 4, 2⟩ [.setSockets 2, .setThreads 16] :=
  (@consistent_along_iff _ (.totals 2 4 2) rfl _).mpr
    ⟨by unfold Constructor.Fits; decide, .inl rfl, rfl, trivial⟩

/-- The calls for a node with one processor of one core. -/
theorem not_consistent_along_fillData :
    ¬ (Consistent {} ∧ Along set (fun cpu setter => Consistent (cpu.set setter)) {}
      [.setSockets 1, .setCoresPerSocket 1, .setThreadsPerCore 1]) := by
  rintro ⟨-, -, hcores, -⟩
  exact absurd hcores.cores (by decide)

/-! ### The nodes of an answer file -/

/-- The totals of a node are never set, so they are right only for a node without cores. -/
theorem consistent_makeNode_iff {host : Host} {os : OS} {management : Network × ℕ}
    {entry : AFNode} {node : Node} (h : Cluster.makeNode host os management entry = .ok node) :
    Consistent node.cpu ↔ node.cpu.sockets = 0 ∨ node.cpu.coresPerSocket = 0 := by
  simp only [Cluster.makeNode, except_bind_ok_iff, except_pure_ok_iff] at h
  obtain ⟨_, -, _, -, _, -, _, -, _, -, _, -, sockets, -, cores, -, threads, -, _, -, _, -, _, -,
    _, -, _, -, _, -, rfl⟩ := h
  rw [consistent_iff, ← mul_eq_zero]
  dsimp only
  rw [zero_mul, and_iff_left rfl, eq_comm]

end Cloyster.Models.CPU

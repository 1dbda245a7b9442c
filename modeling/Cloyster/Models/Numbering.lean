import Cloyster.Lib.Numerals
import Cloyster.Models.Load

/-! The hostnames that are made up for nodes. A node section is known by the number that the
end of its name reads as, and the hostname is the prefix and that number, padded. So two
sections share a hostname exactly when their names spell one number in two ways. -/

namespace Cloyster.AnswerFile

open Lib

variable {boost : Boost} {file : KeyFile} {af af' : AnswerFile}

theorem generatedHostname_inj {m n : ℕ} :
    generatedHostname file m = generatedHostname file n ↔ m = n := by
  rw [generatedHostname, generatedHostname, String.append_right_inj, Text.zeroPad_inj]

/-- The node of a section stands at the section's place. -/
theorem getElem?_loadNodes (h : loadNodes boost file af = .ok af') {i : ℕ}
    {nodeSection : String × ℕ} (hi : (nodeSections boost file)[i]? = some nodeSection) :
    af'.nodes.nodes[af.nodes.nodes.length + i]? = some (nodeOf boost file nodeSection) := by
  obtain ⟨-, -, rfl⟩ := loadNodes_ok_iff.mp h
  show (af.nodes.nodes ++ (nodeSections boost file).map (nodeOf boost file))[_]? = _
  rw [List.getElem?_append_right (by omega), Nat.add_sub_cancel_left, List.getElem?_map, hi,
    Option.map_some]

theorem hostname_nodeOf {s : String} {n : ℕ} (h : keyText file s "hostname" = "") :
    (nodeOf boost file (s, n)).hostname = some (generatedHostname file n) := by
  show some (hostnameOf file s n) = _
  rw [hostnameOf, if_neg (not_not.mpr h)]

/-- Two sections that are loaded, neither with a hostname of its own. -/
theorem hostname_eq_iff (h : loadNodes boost file af = .ok af') {i j m n : ℕ} {s t : String}
    (hi : (nodeSections boost file)[i]? = some (s, m))
    (hj : (nodeSections boost file)[j]? = some (t, n)) (hs : keyText file s "hostname" = "")
    (ht : keyText file t "hostname" = "") : ∃ node node',
      af'.nodes.nodes[af.nodes.nodes.length + i]? = some node ∧
      af'.nodes.nodes[af.nodes.nodes.length + j]? = some node' ∧
      node.hostname.isSome ∧ (node.hostname = node'.hostname ↔ m = n) := by
  refine ⟨_, _, getElem?_loadNodes h hi, getElem?_loadNodes h hj, ?_, ?_⟩
  · rw [hostname_nodeOf hs]
    rfl
  · rw [hostname_nodeOf hs, hostname_nodeOf ht, Option.some_inj, generatedHostname_inj]

/-- A generic section, and node sections that have a MAC address only. -/
def numberedFile (names : List String) : KeyFile :=
  .ofGroups (("node", [("prefix", "n"), ("padding", "2"), ("node_ip", "172.26.0.1"),
    ("node_root_password", "pwd"), ("sockets", "1"), ("cores_per_socket", "1"),
    ("threads_per_core", "1"), ("bmc_address", "10.0.0.2"), ("bmc_username", "admin"),
    ("bmc_password", "admin"), ("bmc_serialport", "0"), ("bmc_serialspeed", "9600")]) ::
      names.map fun name => (name, [("mac_address", "ca:fe:de:ad:be:ef")]))

theorem hostname_eq_iff_twelve : ∃ af', loadNodes .digits (numberedFile ["node.1", "node.12"]) {} =
    .ok af' ∧ ∃ node node', af'.nodes.nodes[0]? = some node ∧ af'.nodes.nodes[1]? = some node' ∧
      node.hostname.isSome ∧ (node.hostname = node'.hostname ↔ 1 = 12) := by
  have hload : (loadNodes .digits (numberedFile ["node.1", "node.12"]) {}).isOk := by
    decide +kernel
  obtain ⟨af', haf'⟩ := isOk_iff.mp hload
  have h := hostname_eq_iff haf' (i := 0) (j := 1) (s := "node.1") (t := "node.12") (m := 1)
    (n := 12) (by decide +kernel) (by decide +kernel) (by decide +kernel) (by decide +kernel)
  exact ⟨af', haf', h⟩

/-- A leading zero makes another name of the same number. -/
theorem not_distinct_leadingZero :
    nodeSections .digits (numberedFile ["node.1", "node.01"]) = [("node.1", 1), ("node.01", 1)] ∧
      ∃ af', loadNodes .digits (numberedFile ["node.1", "node.01"]) {} = .ok af' ∧
        af'.nodes.nodes.map (·.hostname) = [some "n01", some "n01"] := by
  refine ⟨by decide +kernel, ?_⟩
  have hload : ((loadNodes .digits (numberedFile ["node.1", "node.01"]) {}).map fun af' =>
      af'.nodes.nodes.map (·.hostname)) = .ok [some "n01", some "n01"] := by decide +kernel
  cases h : loadNodes .digits (numberedFile ["node.1", "node.01"]) {} with
  | error e =>
    rw [h] at hload
    exact absurd hload (by simp [Except.map])
  | ok af' =>
    rw [h] at hload
    exact ⟨af', rfl, Except.ok.inj hload⟩

end Cloyster.AnswerFile

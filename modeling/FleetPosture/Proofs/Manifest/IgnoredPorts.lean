import FleetPosture.Manifest.Audit
import FleetPosture.Proofs.Manifest.SelfAudit
import Mathlib.Data.List.Flatten
import Mathlib.Data.List.Forall2

/-! The audit against a manifest with more ignored ports. Every finding either does not look at the
ignored ports or asks for a port that is not among them, so findings only go away; and the lookup of
a host's entry does not look at them, so only the hosts of a changed entry are concerned. -/

namespace FleetPosture

/-- The entries differ at most in that the first one ignores further ports. -/
structure HostSpec.IgnoresMore (wide narrow : HostSpec) : Prop where
  covered : wide.covered = narrow.covered
  processes : wide.processes = narrow.processes
  ignoredPorts : narrow.ignoredPorts ⊆ wide.ignoredPorts

namespace Manifest

def IgnoresMore (wide narrow : Manifest) : Prop :=
  List.Forall₂ HostSpec.IgnoresMore wide.specs narrow.specs

section Entry

variable {wide narrow wide' narrow' : HostSpec}

theorem covers_of_ignoresMore (more : wide.IgnoresMore narrow) (identity : String) :
    wide.covers identity ↔ narrow.covers identity := by
  rw [HostSpec.covers, HostSpec.covers, more.covered]

theorem moreSpecific_of_ignoresMore (more : wide.IgnoresMore narrow)
    (more' : wide'.IgnoresMore narrow') :
    (wide.moreSpecific wide').IgnoresMore (narrow.moreSpecific narrow') := by
  unfold HostSpec.moreSpecific
  rw [more.covered, more'.covered]
  split
  · exact more'
  · exact more

theorem contains_of_ignoresMore (more : wide.IgnoresMore narrow) {n : UInt16}
    (h : narrow.ignoredPorts.contains n) : wide.ignoredPorts.contains n :=
  List.contains_iff_mem.2 (more.ignoredPorts (List.contains_iff_mem.1 h))

theorem all_ignored_of_ignoresMore (more : wide.IgnoresMore narrow) {ports : List UInt16}
    (h : ports.all (narrow.ignoredPorts.contains ·)) :
    ports.all (wide.ignoredPorts.contains ·) := by
  rw [List.all_eq_true] at h ⊢
  exact fun n hn => contains_of_ignoresMore more (h n hn)

theorem processFindings_sublist (more : wide.IgnoresMore narrow) (actual : ProcessSpec) :
    (processFindings wide actual).Sublist (processFindings narrow actual) := by
  unfold processFindings
  rw [more.processes]
  cases find? narrow.processes actual.command with
  | none =>
    by_cases ignored : actual.ports.all (narrow.ignoredPorts.contains ·)
    · simp only [ignored, all_ignored_of_ignoresMore more ignored, if_true, List.Sublist.refl]
    · simp only [ignored, Bool.false_eq_true, if_false]
      split
      · exact List.nil_sublist _
      · exact List.Sublist.refl _
  | some want =>
    refine .append (.append (.refl _) (.map _ ?_)) (.refl _)
    refine List.monotone_filter_right _ fun n unexpected => ?_
    simp only [Bool.and_eq_true, Bool.not_eq_true'] at unexpected ⊢
    exact ⟨unexpected.1, Bool.eq_false_iff.2 fun ignored =>
      Bool.eq_false_iff.1 unexpected.2 (contains_of_ignoresMore more ignored)⟩

theorem missingProcesses_sublist (more : wide.IgnoresMore narrow) (actual : HostSpec) :
    (missingProcesses wide actual).Sublist (missingProcesses narrow actual) := by
  unfold missingProcesses
  rw [more.processes]
  refine List.monotone_filter_right _ fun want missing => ?_
  simp only [Bool.and_eq_true, Bool.not_eq_true'] at missing ⊢
  exact ⟨Bool.eq_false_iff.2 fun ignored =>
    Bool.eq_false_iff.1 missing.1 (all_ignored_of_ignoresMore more ignored), missing.2⟩

end Entry

variable {wide narrow : Manifest}

theorem specFor?_of_ignoresMore (more : wide.IgnoresMore narrow) (identity : String) :
    Option.Rel HostSpec.IgnoresMore (wide.specFor? identity) (narrow.specFor? identity) := by
  have covering : List.Forall₂ HostSpec.IgnoresMore
      (wide.specs.filter (·.covers identity)) (narrow.specs.filter (·.covers identity)) := by
    refine List.rel_filter ?_ more
    exact fun _ _ entry => covers_of_ignoresMore entry identity
  refine List.rel_foldl ?_ .none covering
  intro best best' known entry entry' more
  cases known with
  | none => exact .some more
  | some moreBest => exact .some (moreSpecific_of_ignoresMore moreBest more)

theorem hostFindings_sublist (more : wide.IgnoresMore narrow) (actual : HostSpec) :
    (hostFindings wide actual).Sublist (hostFindings narrow actual) := by
  have counts := specFor?_of_ignoresMore more actual.covered
  unfold hostFindings
  generalize wide.specFor? actual.covered = w, narrow.specFor? actual.covered = n at counts ⊢
  cases counts with
  | none => exact .refl _
  | some more =>
    refine .append (List.Sublist.flatMap_right _ fun p _ => ?_) ?_
    · exact (processFindings_sublist more p).map _
    · exact (missingProcesses_sublist more actual).map _

theorem hostFindings_congr {actual : HostSpec}
    (same : wide.specFor? actual.covered = narrow.specFor? actual.covered) :
    hostFindings wide actual = hostFindings narrow actual := by
  rw [hostFindings, hostFindings, same]

def rowsAbout (m : Manifest) (s : Snapshot) (identity : String) : List (List String) :=
  (audit m s).rows.filter (·.head? = some identity)

theorem rowsAbout_congr {identity : String} (s : Snapshot)
    (same : wide.specFor? identity = narrow.specFor? identity) :
    rowsAbout wide s identity = rowsAbout narrow s identity := by
  unfold rowsAbout audit
  rw [List.filter_flatMap, List.filter_flatMap]
  refine List.flatMap_congr fun host _ => ?_
  by_cases named : host.covered = identity
  · rw [hostFindings_congr (named ▸ same)]
  · simp [List.filter_map, Function.comp_def, named]

/-- To ignore further ports adds no row to the audit, and changes no row about a host whose entry
stays as it is. -/
theorem audit_of_ignoresMore (more : wide.IgnoresMore narrow) (s : Snapshot) :
    (audit wide s).rows.Sublist (audit narrow s).rows ∧
      ∀ identity, wide.specFor? identity = narrow.specFor? identity →
        rowsAbout wide s identity = rowsAbout narrow s identity := by
  constructor
  · refine List.Sublist.flatMap_right _ fun host _ => ?_
    exact (hostFindings_sublist more host).map _
  · exact fun identity same => rowsAbout_congr s same

def driftedFleet : Snapshot :=
  let proxy := webServer 10 "0.0.0.0" 8080
  let agent : HostProcess := ⟨"agent", 11, "root", [], [], [⟨.tcp, "*", 6868, Port.listenState, none⟩]⟩
  snapshotOf [⟨"router/0", "10.0.0.1", [proxy, agent], [], []⟩, ⟨"web/0", "10.0.0.2", [proxy], [], []⟩]

def routersAndWebs (ignored : List UInt16) : Manifest :=
  let nginx : ProcessSpec := ⟨"nginx", "vcap", [80]⟩
  ⟨[⟨"router", [nginx, ⟨"metron", "vcap", [3457]⟩], ignored⟩, ⟨"web", [nginx], []⟩]⟩

theorem audit_of_ignoresMore_routers :
    let narrow := routersAndWebs []
    let wide := routersAndWebs [8080, 6868, 3457]
    IgnoresMore wide narrow ∧ wide.specFor? "web/0" = narrow.specFor? "web/0" ∧
      (audit wide driftedFleet).rows.Sublist (audit narrow driftedFleet).rows ∧
      rowsAbout wide driftedFleet "web/0" = rowsAbout narrow driftedFleet "web/0" ∧
      (rowsAbout narrow driftedFleet "router/0").length = 4 ∧
      rowsAbout wide driftedFleet "router/0" =
        [["router/0", "nginx", "expected port 80 not listening"]] := by
  intro narrow wide
  have more : IgnoresMore wide narrow :=
    .cons ⟨rfl, rfl, List.nil_subset _⟩ (.cons ⟨rfl, rfl, List.nil_subset _⟩ .nil)
  have same : wide.specFor? "web/0" = narrow.specFor? "web/0" := by decide +kernel
  obtain ⟨fewer, unchanged⟩ := audit_of_ignoresMore more driftedFleet
  exact ⟨more, same, fewer, unchanged _ same, by decide +kernel, by decide +kernel⟩

end Manifest
end FleetPosture

import FleetPosture.Proofs.Manifest.SelfAudit

/-! Which hosts an audit reports as not in the manifest: exactly those that no entry covers. The
entry that a snapshot gives a host stands also for every host whose identity continues that host's,
so `web/10` is not new to the manifest of a fleet that had a `web/1`. -/

namespace FleetPosture.Manifest

variable {m : Manifest} {s t : Snapshot}

theorem Finding.text_eq_unlisted_iff {f : Finding} :
    f.text = "host not in manifest" ↔ f = .hostNotInManifest := by
  constructor
  · intro h
    -- the others already differ in their first letter
    have first : f.text.toList.head? = some 'h' := by rw [h]; rfl
    cases f with
    | hostNotInManifest => rfl
    | unexpectedProcess ports =>
      change ("unexpected process listening on " ++ _).toList.head? = _ at first
      simp [String.toList_append] at first
    | wrongUser actual expected =>
      change ("runs as " ++ actual ++ ", expected " ++ expected).toList.head? = _ at first
      simp [String.toList_append] at first
    | unexpectedPort n =>
      change ("unexpected port " ++ toString n.toNat).toList.head? = _ at first
      simp [String.toList_append] at first
    | missingPort n =>
      change ("expected port " ++ toString n.toNat ++ " not listening").toList.head? = _ at first
      simp [String.toList_append] at first
    | missingProcess =>
      change "expected process not listening".toList.head? = _ at first
      simp at first
  · rintro rfl
    rfl

theorem unlisted_not_mem_processFindings {expected : HostSpec} {actual : ProcessSpec} :
    .hostNotInManifest ∉ processFindings expected actual := by
  intro h
  unfold processFindings at h
  dsimp only at h
  split at h
  · split at h
    · exact List.not_mem_nil h
    · simp at h
  · simp only [List.mem_append, List.mem_map, reduceCtorEq, and_false, exists_false, or_false] at h
    split at h
    · exact List.not_mem_nil h
    · simp at h

theorem unlisted_mem_hostFindings_iff {actual : HostSpec} {command : String} :
    (command, .hostNotInManifest) ∈ hostFindings m actual ↔
      command = "" ∧ m.specFor? actual.covered = none := by
  unfold hostFindings
  cases m.specFor? actual.covered with
  | none => simp
  | some expected =>
    simp only [List.mem_append, List.mem_flatMap, List.mem_map, Prod.mk.injEq, reduceCtorEq,
      and_false, exists_false, or_false, iff_false]
    rintro ⟨p, -, f, hf, -, rfl⟩
    exact unlisted_not_mem_processFindings hf

theorem unlisted_mem_rows_iff {identity : String} :
    [identity, "", "host not in manifest"] ∈ (audit m t).rows ↔
      (∃ h ∈ t.hosts, h.identity = identity) ∧ ∀ spec ∈ m.specs, ¬ spec.covers identity := by
  rw [← specFor?_eq_none_iff]
  simp only [audit, ofSnapshot, List.mem_flatMap, List.mem_map, Prod.exists, List.cons.injEq,
    and_true, Finding.text_eq_unlisted_iff, exists_exists_and_eq_and]
  constructor
  · rintro ⟨h, hh, command, f, hf, rfl, rfl, rfl⟩
    exact ⟨⟨h, hh, rfl⟩, (unlisted_mem_hostFindings_iff.1 hf).2⟩
  · rintro ⟨⟨h, hh, rfl⟩, unlisted⟩
    exact ⟨h, hh, "", .hostNotInManifest, unlisted_mem_hostFindings_iff.2 ⟨rfl, unlisted⟩, rfl, rfl,
      rfl⟩

/-- A host of a later snapshot is reported as new exactly if its identity continues no identity of
the snapshot that the manifest is made from. -/
theorem newHost_reported_iff {h : Host} (hh : h ∈ t.hosts) :
    [h.identity, "", "host not in manifest"] ∈ (audit (ofSnapshot s) t).rows ↔
      ∀ g ∈ s.hosts, ¬ g.identity.toList <+: h.identity.toList := by
  rw [unlisted_mem_rows_iff, and_iff_right ⟨h, hh, rfl⟩]
  simp only [ofSnapshot, List.forall_mem_map, HostSpec.covers_iff]
  exact Iff.rfl

def bareHost (name address : String) : Host := ⟨name, address, [], [], []⟩

theorem newHost_reported_shorter :
    let s := snapshotOf [bareHost "web/10" "10.0.0.10"]
    let t := snapshotOf [bareHost "web/1" "10.0.0.1", bareHost "web/10" "10.0.0.10"]
    bareHost "web/1" "10.0.0.1" ∈ t.hosts ∧
      [(bareHost "web/1" "10.0.0.1").identity, "", "host not in manifest"] ∈
        (audit (ofSnapshot s) t).rows := by
  intro s t
  have hh : bareHost "web/1" "10.0.0.1" ∈ t.hosts := List.mem_cons_self
  exact ⟨hh, (newHost_reported_iff hh).2 (by decide +kernel)⟩

theorem newHost_unreported_longer :
    let s := snapshotOf [bareHost "web/1" "10.0.0.1"]
    let t := snapshotOf [bareHost "web/1" "10.0.0.1", bareHost "web/10" "10.0.0.10"]
    let h := bareHost "web/10" "10.0.0.10"
    h ∈ t.hosts ∧ (∀ g ∈ s.hosts, g.identity ≠ h.identity) ∧
      [h.identity, "", "host not in manifest"] ∉ (audit (ofSnapshot s) t).rows := by
  intro s t h
  exact ⟨by decide +kernel, by decide +kernel, by decide +kernel⟩

end FleetPosture.Manifest

import FleetPosture.Proofs.Store.Saving

/-! A saved snapshot is loaded as it was stored, from every database whose rows belong to keys that
were given. -/

namespace FleetPosture.Store

open Tables

variable {t : Tables}

def newSnapshot (s : Snapshot) (createdAt : String) : Write Int := do
  let k ← Write.add (·.snapshots) (fun t x => { t with snapshots := x }) fun k =>
    ⟨k, .text s.id.text, .text createdAt, .ofNat s.hosts.length⟩
  s.hosts.forM (Write.host k)
  return k

theorem snapshot_eq {s : Snapshot} {createdAt : String} (text : s.createdAt.text? = some createdAt)
    (t : Tables) : Write.snapshot s t =
      if t.snapshots.rows.any (·.id == .text s.id.text) then .error .duplicateId
      else newSnapshot s createdAt t := by
  rw [Write.snapshot, text]
  show (if t.snapshots.rows.any (·.id == .text s.id.text) then
    (throw StoreError.duplicateId : Write Unit) >>= fun _ => newSnapshot s createdAt
    else newSnapshot s createdAt) t = _
  split <;> rfl

structure Entered (t : Tables) (s : Snapshot) (t' : Tables) : Prop where
  grows : t.Grows t'
  held : ∀ row x, HoldsSnapshot t row x → HoldsSnapshot t' row x
  last : ∃ row, t'.snapshots.rows = t.snapshots.rows ++ [row] ∧ HoldsSnapshot t' row s

theorem Entered.latest_eq {s : Snapshot} {t' : Tables} (h : Entered t s t') :
    latest t' = .ok s.stored := by
  obtain ⟨row, rows, holds⟩ := h.last
  rw [latest, rows, List.getLast?_concat]
  exact loadSnapshot_of_holds holds

theorem meets_newSnapshot (grounded : t.Grounded) {s : Snapshot} {createdAt : String}
    (text : s.createdAt.text? = some createdAt) (dated : ∀ h ∈ s.hosts, h.IsDated) :
    Meets (newSnapshot s createdAt) t (Cost.ofSnapshot s) fun _ t' => t'.Grounded ∧
      Entered t s t' ∧ latest t' = .ok s.stored := by
  suffices entered : Meets (newSnapshot s createdAt) t (Cost.ofSnapshot s) fun _ t' =>
      t'.Grounded ∧ Entered t s t' from
    entered.imp fun _ _ ⟨grounded', entry⟩ => ⟨grounded', entry, entry.latest_eq⟩
  unfold newSnapshot Cost.ofSnapshot
  refine Meets.bind (Meets.add .snapshot rfl (fun _ => rfl) fun _ k => by cases k <;> rfl) ?_
  rintro k t₁ used ⟨hk, ht₁⟩
  have new : t.used .snapshot < k := hk ▸ Int.lt_succ _
  have under (l : Link) (j : Int) : t₁.under l j = t.under l j := by
    rw [ht₁]
    cases l <;> rfl
  have spares : Spares (fun _ _ => False) t t₁ := by
    refine ⟨fun j => ?_, fun l j _ _ => under l j⟩
    rw [used]
    exact Int.le_add_of_nonneg_right (Int.natCast_nonneg _)
  have grounded₁ : t₁.Grounded := by
    intro l j hj
    rw [under]
    exact grounded l j (Int.lt_of_le_of_lt (spares.used _) hj)
  have reached : k ≤ t₁.used .snapshot := by
    rw [used, hk, Cost.one, if_pos rfl]
    exact Int.le_refl _
  -- the snapshot's key is new, so no host of another snapshot belongs to it
  have noHosts : t₁.under .hosts k = [] := by
    rw [under]
    exact grounded .hosts k new
  refine Meets.bind (d := Cost.none) (meets_hosts grounded₁ reached noHosts dated) ?_
  rintro _ t₂ - ⟨ext, hosts⟩
  refine .pure ⟨ext.grounded, ?_, ?_, ?_⟩
  · have first : t.Grows t₁ := by
      rw [ht₁]
      exact { Grows.refl t with snapshots := List.prefix_append _ _ }
    exact first.trans ext.grows
  · intro row x holds
    have old : row.seq ≠ k := fun h => Int.not_le.2 new (h ▸ holds.given)
    exact (holds.mono spares id fun _ _ _ => id).mono ext.toSpares (fun h => old h.2)
      fun l _ hl h => hl h.1
  · refine ⟨⟨k, .text s.id.text, .text createdAt, .ofNat s.hosts.length⟩, ?_, ?_⟩
    · rw [ext.snapshots, ht₁]
    · exact ⟨Int.le_trans reached (ext.used _), rfl, ⟨createdAt, text, rfl⟩, hosts⟩

theorem save_of_fresh {s : Snapshot} {createdAt : String}
    (text : s.createdAt.text? = some createdAt)
    (fresh : ∀ r ∈ t.snapshots.rows, r.id ≠ .text s.id.text) :
    save t s = newSnapshot s createdAt t := by
  have unused : ¬ t.snapshots.rows.any (·.id == .text s.id.text) := by
    rw [List.any_eq_true]
    rintro ⟨r, hr, heq⟩
    exact fresh r hr (eq_of_beq heq)
  exact (snapshot_eq text t).trans (if_neg unused)

theorem fresh_of_save {s : Snapshot} {createdAt : String} {n : Int} {t' : Tables}
    (text : s.createdAt.text? = some createdAt) (saved : save t s = .ok (n, t')) :
    ∀ r ∈ t.snapshots.rows, r.id ≠ .text s.id.text := by
  intro r hr heq
  have used : t.snapshots.rows.any (·.id == .text s.id.text) :=
    List.any_eq_true.2 ⟨r, hr, beq_iff_eq.2 heq⟩
  have refused : save t s = .error .duplicateId := (snapshot_eq text t).trans (if_pos used)
  exact absurd (saved.symm.trans refused) (by simp)

/-- Databases that come about by saving snapshots that were read. -/
inductive Reachable : Tables → Prop
  | empty : Reachable .empty
  | save {t t' : Tables} {s : Snapshot} {n : Int} (before : Reachable t) (dated : s.IsDated)
      (saved : save t s = .ok (n, t')) : Reachable t'

theorem Reachable.grounded (h : Reachable t) : t.Grounded := by
  induction h with
  | empty => exact grounded_empty
  | @save t t' s n _ dated saved ih =>
    obtain ⟨createdAt, text⟩ := dated.createdAt
    have meets := meets_newSnapshot ih text dated.hosts
    rw [save_of_fresh text (fresh_of_save text saved)] at saved
    by_cases fits : t.Fits (Cost.ofSnapshot s)
    · obtain ⟨n', t'', run, -, grounded, -⟩ := meets.room fits
      obtain ⟨-, rfl⟩ := Prod.mk.inj (Except.ok.inj (run.symm.trans saved))
      exact grounded
    · exact absurd ((meets.full fits).symm.trans saved) (by simp)

/-- Saving a snapshot that was read from JSON under a new identifier fails only if the keys run out;
otherwise loading gives all of it back but the versions without ciphers. -/
theorem latest_save {text : String} {s : Snapshot} (decoded : Snapshot.decode? text = some s)
    (grounded : t.Grounded) (fresh : ∀ r ∈ t.snapshots.rows, r.id ≠ .text s.id.text) :
    (t.Fits (Cost.ofSnapshot s) →
      ∃ n t', save t s = .ok (n, t') ∧ t'.Grounded ∧ latest t' = .ok s.stored) ∧
    (¬ t.Fits (Cost.ofSnapshot s) → save t s = .error .full) ∧
    (s.HasNoEmptyVersion → s.stored = s) := by
  have dated := Snapshot.isDated_of_decode? decoded
  obtain ⟨createdAt, text⟩ := dated.createdAt
  have meets := meets_newSnapshot grounded text dated.hosts
  rw [save_of_fresh text fresh]
  refine ⟨fun fits => ?_, meets.full, Snapshot.stored_eq_self⟩
  obtain ⟨n, t', saved, -, grounded', -, loaded⟩ := meets.room fits
  exact ⟨n, t', saved, grounded', loaded⟩

def scanned : Snapshot :=
  ⟨⟨1⟩, ⟨2024, 6, 11, 10, 20, 30, 0, 120, by decide⟩,
    [⟨"web/0", "10.0.0.1", [⟨"nginx", 10, "www", ["nginx"], [],
      [⟨.tcp, "::", 443, "LISTEN", some ⟨true, none,
        .ofList [("VersionSSL30", []), ("VersionTLS13", [⟨"TLS_AES_128_GCM_SHA256", .acceptable⟩])],
        false, some ""⟩⟩]⟩], [], []⟩]⟩

def scannedText : String :=
  "[\"00000000-0000-0000-0000-000000000001\",\"2024-06-11T10:20:30+02:00\"," ++
    "[[\"web/0\",\"10.0.0.1\",[[\"nginx\",10,\"www\",[\"nginx\"],[]," ++
    "[[\"tcp\",\"::\",443,\"LISTEN\",[true,null,\x7b\"VersionSSL30\":[]," ++
    "\"VersionTLS13\":[[\"TLS_AES_128_GCM_SHA256\",\"acceptable\"]]\x7d,false,\"\"]]]]],[],[]]]]"

theorem latest_save_scanned : Snapshot.decode? scannedText = some scanned ∧
    ∃ n t', save .empty scanned = .ok (n, t') ∧ t'.Grounded ∧ latest t' = .ok scanned.stored := by
  have decoded : Snapshot.decode? scannedText = some scanned := by decide +kernel
  have room : Tables.empty.Fits (Cost.ofSnapshot scanned) := by
    intro k _
    cases k <;> decide +kernel
  exact ⟨decoded, (latest_save decoded grounded_empty fun r hr => absurd hr List.not_mem_nil).1 room⟩

end FleetPosture.Store

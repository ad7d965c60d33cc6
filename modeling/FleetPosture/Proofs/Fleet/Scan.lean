import FleetPosture.Proofs.Fleet.HostScan

/-! What a scan asks for as a whole. Between its set-up and its clean-up stand the calls of the
hosts' scans, interleaved in one order or another, and whatever was acquired by then has been given
back. -/

namespace FleetPosture.Fleet

open Program

variable {S : Type}

section Balance

inductive Held (S : Type)
  | session (session : S)
  | endpoint (e : Endpoint)

def acquired? : Call (Answer (S := S)) → Option (Held S)
  | ⟨.openSession _ _, .ok session⟩ => some (.session session)
  | ⟨.endpoint _ _, .ok e⟩ => some (.endpoint e)
  | _ => none

def returned? : Call (Answer (S := S)) → Option (Held S)
  | ⟨.closeSession session, _⟩ => some (.session session)
  | ⟨.release e, _⟩ => some (.endpoint e)
  | _ => none

/-- Everything is given back as often as it was acquired. -/
def Balanced (calls : List (Call (Answer (S := S)))) : Prop :=
  (calls.filterMap acquired?).Perm (calls.filterMap returned?)

variable {calls : List (Call (Answer (S := S)))}

theorem Balanced.append {rest : List (Call (Answer (S := S)))} (first : Balanced calls)
    (others : Balanced rest) : Balanced (calls ++ rest) := by
  rw [Balanced, List.filterMap_append, List.filterMap_append]
  exact List.Perm.append first others

theorem Balanced.of_forall (h : ∀ c ∈ calls, acquired? c = none ∧ returned? c = none) :
    Balanced calls := by
  have acquired : calls.filterMap acquired? = [] :=
    List.filterMap_eq_nil_iff.2 fun c hc => (h c hc).1
  have returned : calls.filterMap returned? = [] :=
    List.filterMap_eq_nil_iff.2 fun c hc => (h c hc).2
  rw [Balanced, acquired, returned]

theorem balanced_carried (session : S) (inner : List (Call Inventory.Answer)) :
    Balanced (inner.map (carried session)) := by
  refine .of_forall fun c hc => ?_
  obtain ⟨⟨r, answer⟩, -, rfl⟩ := List.mem_map.1 hc
  cases r <;> exact ⟨rfl, rfl⟩

theorem Balanced.around {first last : Call (Answer (S := S))} {held : Held S}
    (acquires : acquired? first = some held ∧ returned? first = none)
    (returns : acquired? last = none ∧ returned? last = some held) (h : Balanced calls) :
    Balanced (first :: calls ++ [last]) := by
  have taken : (first :: calls ++ [last]).filterMap acquired? =
      held :: calls.filterMap acquired? := by
    simp [acquires.1, returns.1]
  have given : (first :: calls ++ [last]).filterMap returned? =
      calls.filterMap returned? ++ [held] := by
    simp [acquires.2, returns.2]
  rw [Balanced, taken, given]
  exact (List.Perm.cons held h).trans (List.perm_append_singleton held _).symm

theorem Inventoried.balanced {o : ScanOptions} {address : String} {session : S}
    (h : Inventoried o address session calls) : Balanced calls := by
  cases h with
  | refused e => exact .refl _
  | made e commands scan => exact .around ⟨rfl, rfl⟩ ⟨rfl, rfl⟩ (balanced_carried session _)

theorem Probes.balanced {address : String} (h : Probes address calls) : Balanced calls := by
  induction h with
  | nil => exact .refl _
  | refused number e _ ih => exact ih
  | probed number e found _ ih => exact List.Perm.cons (.endpoint e) ih

theorem HostScan.balanced {o : ScanOptions} {target : Target} (h : HostScan o target calls) :
    Balanced calls := by
  cases h with
  | nowhere => exact .refl _
  | refused => exact .refl _
  | @opened address _ session inventory probes inventoried probed =>
    have between : Balanced (⟨.openSession target address, .ok session⟩ :: inventory ++
        [⟨.closeSession session, ()⟩]) := inventoried.balanced.around ⟨rfl, rfl⟩ ⟨rfl, rfl⟩
    have whole := between.append probed.balanced
    rwa [List.append_assoc, List.singleton_append] at whole

theorem balanced_flatten {scans : List (List (Call (Answer (S := S))))}
    (h : ∀ calls ∈ scans, Balanced calls) : Balanced scans.flatten := by
  induction scans with
  | nil => exact .refl _
  | cons calls scans ih =>
    obtain ⟨first, others⟩ := List.forall_mem_cons.1 h
    exact first.append (ih others)

theorem Balanced.of_perm {rest : List (Call (Answer (S := S)))} (h : Balanced calls)
    (same : rest.Perm calls) : Balanced rest :=
  ((same.filterMap acquired?).trans h).trans (same.filterMap returned?).symm

end Balance

section Shared

def IsShared (c : Call (Answer (S := S))) : Prop :=
  c.request = .setUp ∨ c.request = .listHosts ∨ c.request = .cleanUp

variable {calls : List (Call (Answer (S := S)))}

theorem not_isShared_of_isInner {c : Call (Answer (S := S))} (inner : c.request.isInner = true) :
    ¬ IsShared c := by
  rintro (shared | shared | shared) <;> exact absurd (shared ▸ inner) nofun

theorem HostScan.not_isShared {o : ScanOptions} {target : Target} (h : HostScan o target calls) :
    ∀ c ∈ calls, ¬ IsShared c := by
  cases h with
  | nowhere => exact List.forall_mem_nil _
  | refused => exact List.forall_mem_singleton.2 nofun
  | opened _ session inventoried probed =>
    simp only [List.forall_mem_append, List.forall_mem_cons]
    exact ⟨⟨nofun, fun c hc => not_isShared_of_isInner (inventoried.isInner c hc)⟩, nofun,
      fun c hc => not_isShared_of_isInner (probed.isInner c hc)⟩

end Shared

section Run

variable (fleet : World (Answer (S := S))) (schedule : List Nat) (o : ScanOptions)

abbrev Outcome := Target × Except HostFailure Host

def outcomes (targets : List Target) : List Outcome :=
  ((interleave fleet.answer schedule ((distinctTargets targets).map fun target =>
    (target, ·) <$> scanHost o target)).run [⟨.setUp, .ok ()⟩, ⟨.listHosts, .ok targets⟩]).1

variable {fleet}

theorem scan_of_setUp_error {e : Failure} (failed : fleet [] .setUp = .error e) :
    (scan fleet.answer schedule o).run [] = (.error (.setUp e), [⟨.setUp, .error e⟩]) := by
  rw [scan, stateM_bind, World.run_answer, failed]
  rfl

theorem scan_of_listHosts_error {e : Failure} (ready : fleet [] .setUp = .ok ())
    (failed : fleet [⟨.setUp, .ok ()⟩] .listHosts = .error e) :
    (scan fleet.answer schedule o).run [] =
      (.error (.enumerate e), [⟨.setUp, .ok ()⟩, ⟨.listHosts, .error e⟩, ⟨.cleanUp, ()⟩]) := by
  have listing : (scanListed fleet.answer schedule o).run [⟨.setUp, .ok ()⟩] =
      (.error (.enumerate e), [⟨.setUp, .ok ()⟩, ⟨.listHosts, .error e⟩]) := by
    rw [scanListed, stateM_bind, World.run_answer, failed]
    rfl
  rw [scan, stateM_bind, World.run_answer, ready]
  show (scanListed fleet.answer schedule o >>= _).run [⟨.setUp, .ok ()⟩] = _
  rw [stateM_bind, listing]
  rfl

theorem exists_scans {targets : List Target} (ready : fleet [] .setUp = .ok ())
    (listed : fleet [⟨.setUp, .ok ()⟩] .listHosts = .ok targets) :
    ∃ (scans : List (List (Call (Answer (S := S))) × Outcome)) (between : List (Call Answer)),
      (scan fleet.answer schedule o).run [] =
        (.ok (.ofResults ((outcomes fleet schedule o targets).map (·.2))),
          ⟨.setUp, .ok ()⟩ :: ⟨.listHosts, .ok targets⟩ :: between ++ [⟨.cleanUp, ()⟩]) ∧
      List.Forall₂ (fun target s => s.2.1 = target ∧ Makes (scanHost o target) s.1 s.2.2)
        (distinctTargets targets) scans ∧
      Interleaves (scans.map (·.1)) between ∧
      (outcomes fleet schedule o targets).Perm (scans.map (·.2)) := by
  obtain ⟨scans, ends, between, after, run, answered, each, interleaved, same⟩ :=
    exists_answers_interleave fleet.answer schedule
      ((distinctTargets targets).map fun target => (target, ·) <$> scanHost o target)
      [⟨.setUp, .ok ()⟩, ⟨.listHosts, .ok targets⟩]
  obtain rfl := answered.eq_append
  have ended : outcomes fleet schedule o targets = ends := congrArg Prod.fst run
  have results : (interleave fleet.answer schedule ((distinctTargets targets).map (scanHost o))).run
      [⟨.setUp, .ok ()⟩, ⟨.listHosts, .ok targets⟩] =
        (ends.map (·.2), ⟨.setUp, .ok ()⟩ :: ⟨.listHosts, .ok targets⟩ :: between) := by
    have untagged : (distinctTargets targets).map (scanHost (S := S) o) =
        ((distinctTargets targets).map fun target => (target, ·) <$> scanHost o target).map
          (Prod.snd <$> ·) := by
      simp [List.map_map, Function.comp_def]
    rw [untagged, interleave_map, stateM_map, run]
    rfl
  have listing : (scanListed fleet.answer schedule o).run [⟨.setUp, .ok ()⟩] =
      (.ok (.ofResults (ends.map (·.2))),
        ⟨.setUp, .ok ()⟩ :: ⟨.listHosts, .ok targets⟩ :: between) := by
    rw [scanListed, stateM_bind, World.run_answer, listed]
    show (interleave fleet.answer schedule ((distinctTargets targets).map (scanHost o)) >>= _).run
      [⟨.setUp, .ok ()⟩, ⟨.listHosts, .ok targets⟩] = _
    rw [stateM_bind, results]
    rfl
  refine ⟨scans, between, ?_, ?_, interleaved, ended ▸ same⟩
  · rw [scan, stateM_bind, World.run_answer, ready]
    show (scanListed fleet.answer schedule o >>= _).run [⟨.setUp, .ok ()⟩] = _
    rw [stateM_bind, listing, ended]
    rfl
  · refine (List.forall₂_map_left_iff.1 each).imp fun target s made => ?_
    obtain ⟨result, h, made⟩ := makes_map_iff.1 made
    rw [h]
    exact ⟨rfl, made⟩

end Run

/-- Without a set-up there is nothing else, not even a clean-up. After it the clean-up comes last,
and before it the scans of the hosts have made all their calls, each in the order of `HostScan`. -/
theorem scan_calls (fleet : World (Answer (S := S))) (schedule : List Nat) (o : ScanOptions) :
    ∃ result calls, (scan fleet.answer schedule o).run [] = (result, calls) ∧ Balanced calls ∧
      ((∃ e, result = .error (.setUp e) ∧ calls = [⟨.setUp, .error e⟩]) ∨
        (∃ e, result = .error (.enumerate e) ∧
          calls = [⟨.setUp, .ok ()⟩, ⟨.listHosts, .error e⟩, ⟨.cleanUp, ()⟩]) ∨
        ∃ targets scans between, calls = ⟨.setUp, .ok ()⟩ :: ⟨.listHosts, .ok targets⟩ ::
            between ++ [⟨.cleanUp, ()⟩] ∧ (∀ c ∈ between, ¬ IsShared c) ∧
          List.Forall₂ (HostScan o) (distinctTargets targets) scans ∧ Interleaves scans between) := by
  cases ready : fleet [] .setUp with
  | error e =>
    have run := scan_of_setUp_error schedule o ready
    exact ⟨_, _, run, .refl _, .inl ⟨e, rfl, rfl⟩⟩
  | ok =>
    cases listed : fleet [⟨.setUp, .ok ()⟩] .listHosts with
    | error e =>
      have run := scan_of_listHosts_error schedule o ready listed
      exact ⟨_, _, run, .refl _, .inr (.inl ⟨e, rfl, rfl⟩)⟩
    | ok targets =>
      obtain ⟨scans, between, run, each, interleaved, -⟩ := exists_scans schedule o ready listed
      have hosts : List.Forall₂ (HostScan o) (distinctTargets targets) (scans.map (·.1)) :=
        List.forall₂_map_right_iff.2 (each.imp fun _ _ s => (makes_scanHost s.2).1)
      have flat : Balanced between := by
        refine Balanced.of_perm (balanced_flatten fun calls hc => ?_) interleaved.perm
        obtain ⟨target, -, scan⟩ := exists_of_forall₂_right hosts hc
        exact scan.balanced
      have others : ∀ c ∈ between, ¬ IsShared c := by
        intro c hc
        obtain ⟨calls, hcalls, hc⟩ := List.mem_flatten.1 (interleaved.perm.mem_iff.1 hc)
        obtain ⟨target, -, scan⟩ := exists_of_forall₂_right hosts hcalls
        exact scan.not_isShared c hc
      refine ⟨_, _, run, ?_, .inr (.inr ⟨targets, _, between, rfl, others, hosts, interleaved⟩)⟩
      exact flat.append (.refl _)

end FleetPosture.Fleet

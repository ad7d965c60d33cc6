import FleetPosture.Proofs.Fleet.Scan
import FleetPosture.Proofs.KeepFirst
import Mathlib.Data.List.Nodup

/-! What a scan finds, whatever the order in which the hosts' scans end. Every distinct target has
one outcome, and the hosts found are those of the targets that succeeded, one for each name and
address. -/

namespace FleetPosture.Fleet

open Program

variable {S : Type}

def Target.key (t : Target) : String × List String := (t.name, t.addresses)

def hostKey (h : Host) : String × String := (h.name, h.address)

section Openings

def isOpening (key : String × List String) : Call (Answer (S := S)) → Bool
  | ⟨.openSession target _, _⟩ => target.key = key
  | _ => false

variable {calls : List (Call (Answer (S := S)))} (key : String × List String)

theorem isInner_of_isOpening {c : Call (Answer (S := S))} (h : isOpening key c = true) :
    c.request.isInner = false := by
  obtain ⟨r, answer⟩ := c
  cases r with
  | openSession => rfl
  | _ => exact absurd h nofun

theorem countP_opening_of_isInner (inner : ∀ c ∈ calls, c.request.isInner = true) :
    calls.countP (isOpening key) = 0 := by
  rw [List.countP_eq_zero]
  intro c hc opening
  have outer := isInner_of_isOpening key opening
  exact absurd (outer.symm.trans (inner c hc)) Bool.false_ne_true

theorem HostScan.countP_opening {o : ScanOptions} {target : Target} (h : HostScan o target calls) :
    calls.countP (isOpening key) ≤ if target.key = key then 1 else 0 := by
  cases h with
  | nowhere => exact Nat.zero_le _
  | refused chosen e => simp [isOpening]
  | opened chosen session inventoried probed =>
    rw [List.countP_append, List.countP_cons, List.countP_cons,
      countP_opening_of_isInner key inventoried.isInner,
      countP_opening_of_isInner key probed.isInner]
    simp [isOpening]

theorem countP_opening_flatten {o : ScanOptions} {targets : List Target}
    {scans : List (List (Call (Answer (S := S))))} (h : List.Forall₂ (HostScan o) targets scans) :
    scans.flatten.countP (isOpening key) ≤ (targets.map Target.key).count key := by
  induction h with
  | nil => exact Nat.zero_le _
  | cons scan _ ih =>
    rw [List.flatten_cons, List.countP_append, List.map_cons, List.count_cons, Nat.add_comm]
    simp only [beq_iff_eq]
    exact Nat.add_le_add ih (scan.countP_opening key)

theorem countP_opening_interleaved {o : ScanOptions} {targets : List Target}
    {scans : List (List (Call (Answer (S := S))))}
    (each : List.Forall₂ (HostScan o) (distinctTargets targets) scans)
    (interleaved : Interleaves scans calls) : calls.countP (isOpening key) ≤ 1 := by
  have distinct : ((distinctTargets targets).map Target.key).Nodup := nodup_map_keepFirst targets
  rw [interleaved.perm.countP_eq]
  exact Nat.le_trans (countP_opening_flatten key each) (List.nodup_iff_count_le_one.1 distinct key)

end Openings

/-- The findings are what the outcomes of the targets amount to. -/
structure Findings.AccountsFor (S : Type) (o : ScanOptions) (targets : List Target)
    (outs : List Outcome) (findings : Findings) : Prop where
  scanned : (outs.map (·.1)).Perm (distinctTargets targets)
  covered : ∀ target ∈ targets, ∃ out ∈ outs, out.1.key = target.key
  complete : ∀ out ∈ outs, ∃ calls, Makes (scanHost (S := S) o out.1) calls out.2
  distinct : (findings.hosts.map hostKey).Nodup
  found : ∀ host ∈ findings.hosts, ∃ target ∈ targets, (target, .ok host) ∈ outs
  kept : ∀ target host, (target, .ok host) ∈ outs → host.name = target.name ∧
    chooseAddress? o.preferredNetwork target.addresses = some host.address ∧
    (findings.hosts.map hostKey).count (target.name, host.address) = 1
  failed : ∀ target failure, (target, .error failure) ∈ outs → failure ∈ findings.failures ∧
    ∀ host, (target, .ok host) ∉ outs

section Findings

variable {outs : List Outcome}

theorem exists_outcome_of_mem_hosts {h : Host}
    (found : h ∈ (Findings.ofResults (outs.map (·.2))).hosts) : ∃ target, (target, .ok h) ∈ outs := by
  obtain ⟨result, given, ok⟩ := List.mem_filterMap.1 (mem_of_mem_keepFirst found)
  obtain ⟨⟨target, result⟩, listed, rfl⟩ := List.mem_map.1 given
  cases result with
  | error => exact absurd ok nofun
  | ok host =>
    obtain rfl := Option.some.inj ok
    exact ⟨target, listed⟩

theorem mem_keys_of_outcome {target : Target} {h : Host} (succeeded : (target, .ok h) ∈ outs) :
    hostKey h ∈ (Findings.ofResults (outs.map (·.2))).hosts.map hostKey := by
  have given : h ∈ (outs.map (·.2)).filterMap Except.toOption :=
    List.mem_filterMap.2 ⟨.ok h, List.mem_map.2 ⟨_, succeeded, rfl⟩, rfl⟩
  obtain ⟨kept, found, same⟩ : ∃ kept ∈ keepFirst hostKey ((outs.map (·.2)).filterMap
      Except.toOption), hostKey kept = hostKey h := exists_mem_keepFirst given
  exact List.mem_map.2 ⟨kept, found, same⟩

theorem mem_failures_of_outcome {target : Target} {f : HostFailure}
    (failed : (target, .error f) ∈ outs) : f ∈ (Findings.ofResults (outs.map (·.2))).failures :=
  List.mem_filterMap.2 ⟨.error f, List.mem_map.2 ⟨_, failed, rfl⟩, rfl⟩

end Findings

section Run

variable {fleet : World (Answer (S := S))} {schedule : List Nat} {o : ScanOptions}
  {targets : List Target}

def Succeeds (fleet : World (Answer (S := S))) (schedule : List Nat) (o : ScanOptions)
    (targets : List Target) (target : Target) : Prop :=
  ∃ host, (target, .ok host) ∈ outcomes fleet schedule o targets

def foundKeys (fleet : World (Answer (S := S))) (schedule : List Nat) (o : ScanOptions)
    (targets : List Target) : List (String × String) :=
  (Findings.ofResults ((outcomes fleet schedule o targets).map (·.2))).hosts.map hostKey

variable (ready : fleet [] .setUp = .ok ())
  (listed : fleet [⟨.setUp, .ok ()⟩] .listHosts = .ok targets)

include ready listed

theorem outcomes_perm :
    ((outcomes fleet schedule o targets).map (·.1)).Perm (distinctTargets targets) := by
  obtain ⟨scans, -, -, each, -, same⟩ := exists_scans schedule o ready listed
  have scanned : distinctTargets targets = (scans.map (·.2)).map (·.1) := by
    rw [List.map_map, ← List.forall₂_eq_eq_eq, List.forall₂_map_right_iff]
    exact each.imp fun _ _ s => s.1.symm
  exact scanned ▸ same.map _

theorem exists_makes_outcome {out : Outcome}
    (scanned : out ∈ outcomes fleet schedule o targets) :
    ∃ own, Makes (scanHost (S := S) o out.1) own out.2 := by
  obtain ⟨scans, -, -, each, -, same⟩ := exists_scans schedule o ready listed
  obtain ⟨⟨own, out⟩, hs, rfl⟩ := List.mem_map.1 (same.mem_iff.1 scanned)
  obtain ⟨_, -, rfl, made⟩ := exists_of_forall₂_right each hs
  exact ⟨own, made⟩

theorem named_of_outcome {target : Target} {host : Host}
    (succeeded : (target, .ok host) ∈ outcomes fleet schedule o targets) :
    host.name = target.name ∧
      chooseAddress? o.preferredNetwork target.addresses = some host.address := by
  obtain ⟨own, made⟩ := exists_makes_outcome ready listed succeeded
  exact (makes_scanHost made).2 host rfl

theorem mem_foundKeys_iff {key : String × String} :
    key ∈ foundKeys fleet schedule o targets ↔ ∃ target, Succeeds fleet schedule o targets target ∧
      ∃ address, chooseAddress? o.preferredNetwork target.addresses = some address ∧
        key = (target.name, address) := by
  constructor
  · intro found
    obtain ⟨host, kept, rfl⟩ := List.mem_map.1 found
    obtain ⟨target, succeeded⟩ := exists_outcome_of_mem_hosts kept
    obtain ⟨name, chosen⟩ := named_of_outcome ready listed succeeded
    exact ⟨target, ⟨host, succeeded⟩, host.address, chosen, by rw [← name]; rfl⟩
  · rintro ⟨target, ⟨host, succeeded⟩, address, chosen, rfl⟩
    obtain ⟨name, chosen'⟩ := named_of_outcome ready listed succeeded
    obtain rfl := Option.some.inj (chosen'.symm.trans chosen)
    exact name ▸ mem_keys_of_outcome succeeded

theorem outcome_unique {target : Target} {r r' : Except HostFailure Host}
    (h : (target, r) ∈ outcomes fleet schedule o targets)
    (h' : (target, r') ∈ outcomes fleet schedule o targets) : r = r' := by
  have distinct : ((outcomes fleet schedule o targets).map (·.1)).Nodup :=
    (outcomes_perm ready listed).nodup_iff.2 (List.Nodup.of_map _ (nodup_map_keepFirst targets))
  exact congrArg Prod.snd (List.inj_on_of_nodup_map distinct h h' rfl)

theorem exists_outcome {target : Target} (given : target ∈ targets) :
    ∃ out ∈ outcomes fleet schedule o targets, out.1.key = target.key := by
  obtain ⟨kept, distinct, same⟩ : ∃ kept ∈ distinctTargets targets, kept.key = target.key :=
    exists_mem_keepFirst given
  obtain ⟨out, scanned, rfl⟩ :=
    List.mem_map.1 ((outcomes_perm ready listed).mem_iff.2 distinct)
  exact ⟨out, scanned, same⟩

theorem mem_targets_of_outcome {out : Outcome} (scanned : out ∈ outcomes fleet schedule o targets) :
    out.1 ∈ targets :=
  mem_of_mem_keepFirst ((outcomes_perm ready listed).mem_iff.1 (List.mem_map.2 ⟨out, scanned, rfl⟩))

theorem mem_foundKeys_congr {fleet' : World (Answer (S := S))} {schedule' : List Nat}
    (ready' : fleet' [] .setUp = .ok ())
    (listed' : fleet' [⟨.setUp, .ok ()⟩] .listHosts = .ok targets)
    (alike : ∀ target, Succeeds fleet schedule o targets target ↔
      Succeeds fleet' schedule' o targets target) (key : String × String) :
    key ∈ foundKeys fleet schedule o targets ↔ key ∈ foundKeys fleet' schedule' o targets := by
  rw [mem_foundKeys_iff ready listed, mem_foundKeys_iff ready' listed']
  simp only [alike]

theorem accountsFor_outcomes :
    (Findings.ofResults ((outcomes fleet schedule o targets).map (·.2))).AccountsFor S o targets
      (outcomes fleet schedule o targets) where
  scanned := outcomes_perm ready listed
  covered _ given := exists_outcome ready listed given
  complete _ given := exists_makes_outcome ready listed given
  distinct := nodup_map_keepFirst _
  found host kept := by
    obtain ⟨target, succeeded⟩ := exists_outcome_of_mem_hosts kept
    exact ⟨target, mem_targets_of_outcome ready listed succeeded, succeeded⟩
  kept target host succeeded := by
    obtain ⟨name, chosen⟩ := named_of_outcome ready listed succeeded
    refine ⟨name, chosen, ?_⟩
    rw [← name]
    exact List.count_eq_one_of_mem (nodup_map_keepFirst _) (mem_keys_of_outcome succeeded)
  failed target failure given := by
    refine ⟨mem_failures_of_outcome given, fun host succeeded => ?_⟩
    exact absurd (outcome_unique ready listed given succeeded) nofun

/-- In whatever order the hosts' scans end, the findings account for every target, no session is
opened twice for one, and where the same targets succeed the same is found. -/
theorem scan_outcomes :
    ∃ findings calls, (scan fleet.answer schedule o).run [] = (.ok findings, calls) ∧
      findings.AccountsFor S o targets (outcomes fleet schedule o targets) ∧
      (∀ key, calls.countP (isOpening key) ≤ 1) ∧
      ∀ (fleet' : World (Answer (S := S))) (schedule' : List Nat), fleet' [] .setUp = .ok () →
        fleet' [⟨.setUp, .ok ()⟩] .listHosts = .ok targets →
        (∀ target, Succeeds fleet schedule o targets target ↔
          Succeeds fleet' schedule' o targets target) →
        ∃ findings' calls', (scan fleet'.answer schedule' o).run [] = (.ok findings', calls') ∧
          ∀ key, key ∈ findings.hosts.map hostKey ↔ key ∈ findings'.hosts.map hostKey := by
  obtain ⟨scans, between, run, each, interleaved, -⟩ := exists_scans schedule o ready listed
  have hosts : List.Forall₂ (HostScan o) (distinctTargets targets) (scans.map (·.1)) :=
    List.forall₂_map_right_iff.2 (each.imp fun _ _ s => (makes_scanHost s.2).1)
  refine ⟨_, _, run, accountsFor_outcomes ready listed, fun key => ?_, ?_⟩
  · have once := countP_opening_interleaved key hosts interleaved
    rw [List.countP_append, List.countP_cons, List.countP_cons]
    exact once
  · intro fleet' schedule' ready' listed' alike
    obtain ⟨_, _, run', _⟩ := exists_scans schedule' o ready' listed'
    exact ⟨_, _, run', mem_foundKeys_congr ready listed ready' listed' alike⟩

end Run

def twins : List Target :=
  [⟨"web", none, "", ["10.0.0.1"]⟩, ⟨"web", none, "", ["127.0.0.1", "10.0.0.1"]⟩,
    ⟨"db", some 0, "", ["10.0.0.2"]⟩]

def twinFleet : World (Answer (S := Unit))
  | _, .setUp => .ok ()
  | _, .listHosts => .ok twins
  | _, .openSession target _ => if target.job = "db" then .error (.of "refused") else .ok ()
  | _, .runCommand _ _ => .ok ⟨"", "", 0⟩
  | _, .closeSession _ => ()
  | _, .endpoint address port => .ok ⟨address, port⟩
  | _, .release _ => ()
  | _, .resolve _ => .ok [.v4 0]
  | _, .scanKeys _ => .ok []
  | _, .probe _ => .absent
  | _, .cleanUp => ()

def twinOptions : ScanOptions := ⟨22, [], none⟩

def twinOrder : List Nat := [2, 1, 0, 1, 1, 0]

theorem scan_outcomes_twins :
    twinFleet [] .setUp = .ok () ∧ twinFleet [⟨.setUp, .ok ()⟩] .listHosts = .ok twins ∧
      ∃ findings calls, (scan twinFleet.answer twinOrder twinOptions).run [] =
          (.ok findings, calls) ∧
        findings.hosts.map hostKey = [("web", "10.0.0.1")] ∧
        findings.AccountsFor Unit twinOptions twins
          (outcomes twinFleet twinOrder twinOptions twins) := by
  have ready : twinFleet [] .setUp = .ok () := rfl
  have listed : twinFleet [⟨.setUp, .ok ()⟩] .listHosts = .ok twins := rfl
  obtain ⟨findings, calls, run, accounts, -⟩ :=
    @scan_outcomes Unit twinFleet twinOrder twinOptions twins ready listed
  have found : ((scan twinFleet.answer twinOrder twinOptions).run []).1.toOption.map
      (fun findings => findings.hosts.map hostKey) = some [("web", "10.0.0.1")] := by
    decide +kernel
  rw [run] at found
  exact ⟨ready, listed, findings, calls, run, Option.some.inj found, accounts⟩

end FleetPosture.Fleet

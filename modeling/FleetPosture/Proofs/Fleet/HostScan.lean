import FleetPosture.Proofs.Fleet.Annotation
import FleetPosture.Proofs.Inventory

/-! What the scan of one host asks for. A session that was opened runs the commands of the inventory
and is closed; an endpoint that was handed out is used for one thing and released, and then only is
the next one asked for. -/

namespace FleetPosture.Fleet

open Program
open Inventory (IsRun KeyScan)

variable {S : Type} {calls : List (Call (Answer (S := S)))}

def carried (session : S) : Call Inventory.Answer → Call (Answer (S := S))
  | ⟨.run command, answer⟩ => ⟨.runCommand session command, answer⟩
  | ⟨.resolve host, answer⟩ => ⟨.resolve host, answer⟩
  | ⟨.scanKeys endpoint, answer⟩ => ⟨.scanKeys endpoint, answer⟩

/-- The calls of an inventory in a session: the endpoint of the host's SSH server is released after
the keys have been scanned there. -/
inductive Inventoried (o : ScanOptions) (address : String) (session : S) :
    List (Call (Answer (S := S))) → Prop
  | refused (e : Failure) : Inventoried o address session [⟨.endpoint address o.sshPort, .error e⟩]
  | made (e : Endpoint) {runs keys : List (Call Inventory.Answer)} (commands : ∀ c ∈ runs, IsRun c)
      (scan : KeyScan e.host e.port keys) :
      Inventoried o address session (⟨.endpoint address o.sshPort, .ok e⟩ ::
        (runs ++ keys).map (carried session) ++ [⟨.release e, ()⟩])

inductive Probes (address : String) : List (Call (Answer (S := S))) → Prop
  | nil : Probes address []
  | refused (number : UInt16) (e : Failure) {rest : List (Call (Answer (S := S)))}
      (others : Probes address rest) :
      Probes address (⟨.endpoint address number, .error e⟩ :: rest)
  | probed (number : UInt16) (e : Endpoint) (found : TlsInfo)
      {rest : List (Call (Answer (S := S)))} (others : Probes address rest) :
      Probes address
        (⟨.endpoint address number, .ok e⟩ :: ⟨.probe e, found⟩ :: ⟨.release e, ()⟩ :: rest)

/-- The calls of the scan of a target, as far as it gets. -/
inductive HostScan (o : ScanOptions) (target : Target) : List (Call (Answer (S := S))) → Prop
  | nowhere (none : chooseAddress? o.preferredNetwork target.addresses = none) :
      HostScan o target []
  | refused {address : String}
      (chosen : chooseAddress? o.preferredNetwork target.addresses = some address) (e : Failure) :
      HostScan o target [⟨.openSession target address, .error e⟩]
  | opened {address : String}
      (chosen : chooseAddress? o.preferredNetwork target.addresses = some address) (session : S)
      {inventory probes : List (Call (Answer (S := S)))}
      (inventoried : Inventoried o address session inventory) (probed : Probes address probes) :
      HostScan o target (⟨.openSession target address, .ok session⟩ ::
        inventory ++ ⟨.closeSession session, ()⟩ :: probes)

section Inner

def Request.isInner : Request S → Bool
  | .runCommand _ _ | .endpoint _ _ | .release _ | .resolve _ | .scanKeys _ | .probe _ => true
  | _ => false

theorem isInner_carried (session : S) (c : Call Inventory.Answer) :
    (carried session c).request.isInner = true := by
  obtain ⟨r, answer⟩ := c
  cases r <;> rfl

theorem Inventoried.isInner {o : ScanOptions} {address : String} {session : S}
    (h : Inventoried o address session calls) : ∀ c ∈ calls, c.request.isInner = true := by
  cases h with
  | refused e => exact List.forall_mem_singleton.2 rfl
  | @made e runs keys commands scan =>
    have inSession : ∀ c ∈ (runs ++ keys).map (carried session), c.request.isInner = true :=
      List.forall_mem_map.2 fun c _ => isInner_carried session c
    simp only [List.forall_mem_append, List.forall_mem_cons]
    exact ⟨⟨rfl, inSession⟩, rfl, List.forall_mem_nil _⟩

theorem Probes.isInner {address : String} (h : Probes address calls) :
    ∀ c ∈ calls, c.request.isInner = true := by
  induction h with
  | nil => exact List.forall_mem_nil _
  | refused number e _ ih => exact List.forall_mem_cons.2 ⟨rfl, ih⟩
  | probed number e found _ ih =>
    simp only [List.forall_mem_cons]
    exact ⟨rfl, rfl, rfl, ih⟩

end Inner

theorem makes_inSession {session : S} {c : Call Inventory.Answer}
    (h : Makes (inSession session c.request) calls c.answer) : calls = [carried session c] := by
  obtain ⟨r, answer⟩ := c
  cases r <;> exact makes_ask_iff.1 h

theorem flatten_inSession {session : S} {inner : List (Call Inventory.Answer)}
    {parts : List (List (Call (Answer (S := S))))}
    (h : List.Forall₂ (fun c part => Makes (inSession session c.request) part c.answer) inner
      parts) :
    parts.flatten = inner.map (carried session) := by
  induction h with
  | nil => rfl
  | cons made _ ih => rw [List.flatten_cons, makes_inSession made, ih]; rfl

theorem makes_inventory {o : ScanOptions} {target : Target} {address : String} {session : S}
    {result : Except Failure Host} (h : Makes (inventory o target address session) calls result) :
    Inventoried o address session calls ∧
      ∀ host, result = .ok host → host.name = target.name ∧ host.address = address := by
  obtain ⟨first, answer, rest, rfl, asked, goesOn⟩ := makes_bind_iff.1 h
  obtain rfl := makes_ask_iff.1 asked
  cases answer with
  | error e =>
    obtain ⟨rfl, rfl⟩ := makes_pure_iff.1 goesOn
    exact ⟨.refused e, nofun⟩
  | ok e =>
    obtain ⟨collecting, host, rest, rfl, collected, goesOn⟩ := makes_bind_iff.1 goesOn
    obtain ⟨releasing, _, rest, rfl, released, ended⟩ := makes_bind_iff.1 goesOn
    obtain ⟨rfl, rfl⟩ := makes_pure_iff.1 ended
    obtain rfl := makes_ask_iff.1 released
    obtain ⟨inner, parts, made, rfl, each⟩ := makes_run collected
    obtain ⟨runs, keys, rfl, commands, scan, named⟩ := Inventory.makes_collect made
    rw [flatten_inSession each]
    exact ⟨.made e commands scan, named⟩

theorem probes_visits (address : String) (visits : List Visit) :
    Probes (S := S) address (visits.flatMap (Visit.calls address)) := by
  induction visits with
  | nil => exact .nil
  | cons v visits ih =>
    cases v with
    | refused number cause => exact .refused number cause ih
    | probed number e found => exact .probed number e found ih

theorem makes_annotate {host result : Host} (h : Makes (annotate host) calls result) :
    Probes host.address calls ∧ result.name = host.name ∧ result.address = host.address := by
  obtain ⟨visits, finding, -, rfl, rfl⟩ := exists_covers_of_annotate h
  exact ⟨probes_visits host.address visits, rfl, rfl⟩

theorem makes_scanAddress {o : ScanOptions} {target : Target} {address : String}
    (chosen : chooseAddress? o.preferredNetwork target.addresses = some address)
    {result : Except Failure Host} (h : Makes (scanAddress o target address) calls result) :
    HostScan o target calls ∧
      ∀ host, result = .ok host → host.name = target.name ∧ host.address = address := by
  obtain ⟨first, answer, rest, rfl, asked, goesOn⟩ := makes_bind_iff.1 h
  obtain rfl := makes_ask_iff.1 asked
  cases answer with
  | error e =>
    obtain ⟨rfl, rfl⟩ := makes_pure_iff.1 goesOn
    exact ⟨.refused chosen e, nofun⟩
  | ok session =>
    obtain ⟨taking, found, rest, rfl, taken, goesOn⟩ := makes_bind_iff.1 goesOn
    obtain ⟨closing, _, rest, rfl, closed, annotates⟩ := makes_bind_iff.1 goesOn
    obtain rfl := makes_ask_iff.1 closed
    obtain ⟨inventoried, named⟩ := makes_inventory taken
    cases found with
    | error e =>
      obtain ⟨rfl, rfl⟩ := makes_pure_iff.1 annotates
      exact ⟨.opened chosen session inventoried .nil, nofun⟩
    | ok host =>
      obtain ⟨probing, annotated, rest, rfl, probed, ended⟩ := makes_bind_iff.1 annotates
      obtain ⟨rfl, rfl⟩ := makes_pure_iff.1 ended
      obtain ⟨name, addressed⟩ := named host rfl
      obtain ⟨probes, sameName, sameAddress⟩ := makes_annotate probed
      rw [addressed] at probes sameAddress
      rw [List.append_nil]
      refine ⟨.opened chosen session inventoried probes, ?_⟩
      rintro _ ⟨⟩
      exact ⟨sameName.trans name, sameAddress⟩

theorem makes_scanHost {o : ScanOptions} {target : Target} {result : Except HostFailure Host}
    (h : Makes (scanHost o target) calls result) :
    HostScan o target calls ∧ ∀ host, result = .ok host → host.name = target.name ∧
      chooseAddress? o.preferredNetwork target.addresses = some host.address := by
  unfold scanHost at h
  split at h
  · next none =>
    obtain ⟨rfl, rfl⟩ := makes_pure_iff.1 h
    exact ⟨.nowhere none, nofun⟩
  · next address chosen =>
    obtain ⟨first, found, rest, rfl, scanned, ended⟩ := makes_bind_iff.1 h
    obtain ⟨rfl, rfl⟩ := makes_pure_iff.1 ended
    obtain ⟨scan, named⟩ := makes_scanAddress chosen scanned
    rw [List.append_nil]
    refine ⟨scan, fun host given => ?_⟩
    cases found with
    | error e => exact absurd given nofun
    | ok found =>
      obtain rfl := Except.ok.inj given
      obtain ⟨name, rfl⟩ := named found rfl
      exact ⟨name, chosen⟩

end FleetPosture.Fleet

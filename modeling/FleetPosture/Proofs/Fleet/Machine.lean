import FleetPosture.Fleet.Source
import FleetPosture.Proofs.Fleet.Scan

/-! The machine on which the scans of hosts behind a gateway run. What the scans share is kept there,
and each call of a scan comes to a few requests to it, between which other scans may go on. -/

namespace FleetPosture

def Remote.Launch.isSuccess : Launch → Bool
  | missing => false
  | finished r => r.status.isSuccess

namespace Fleet.Source

open Program
open Remote (Launch SshOptions SshSession)

section Machine

def respond (outside : World Answer) (before : List (Call Answer)) :
    (r : Request) → StateM Gateway.State (Answer r)
  | .gateway r => Gateway.handle (fun arguments => pure (outside before (.gateway (.launch arguments))))
      (pure (outside before (.gateway .reservePort))) r
  | r => pure (outside before r)

def machine (outside : World Answer) (r : Request) :
    StateM (Gateway.State × List (Call Answer)) (Answer r) := fun (state, before) =>
  let (answer, state') := (respond outside before r).run state
  (answer, state', before ++ [⟨r, answer⟩])

variable {outside : World Answer} {front : List (Call Answer)}

theorem answers_machine_log {calls : List (Call Answer)} {s s' : Gateway.State × List (Call Answer)}
    (h : Answers (machine outside) s calls s') : s'.2 = s.2 ++ calls := by
  induction h with
  | nil => exact (List.append_nil _).symm
  | cons _ ih => exact ih.trans (List.append_assoc _ [_] _)

/-- How a call is answered in a state, and the state after it. -/
inductive Responds (outside : World Answer) (before : List (Call Answer)) (now : Gateway.State) :
    Call Answer → Gateway.State → Prop
  | launched (arguments : List String) :
      Responds outside before now ⟨.gateway (.launch arguments), outside before _⟩ now
  | reserved : Responds outside before now ⟨.gateway .reservePort, outside before _⟩ now
  | connection : Responds outside before now ⟨.gateway .control, now.control⟩ now
  | established (socket : String) :
      Responds outside before now ⟨.gateway (.establish socket), ()⟩ { now with control := some socket }
  | disconnected :
      Responds outside before now ⟨.gateway .takeControl, now.control⟩ { now with control := none }
  | kept (f : Forward) : Responds outside before now ⟨.gateway (.keep f), ()⟩ (now.keep f)
  | taken (localPort : UInt16) :
      Responds outside before now ⟨.gateway (.take localPort), now.find? localPort⟩
        (now.remove localPort)
  | outside (r : Request) (other : ∀ r', r ≠ .gateway r') :
      Responds outside before now ⟨r, outside before r⟩ now

theorem responds_respond (before : List (Call Answer)) (now : Gateway.State) (r : Request) :
    Responds outside before now ⟨r, ((respond outside before r).run now).1⟩
      ((respond outside before r).run now).2 := by
  cases r with
  | gateway r =>
    cases r with
    | launch arguments => exact .launched arguments
    | reservePort => exact .reserved
    | control => exact .connection
    | establish socket => exact .established socket
    | takeControl => exact .disconnected
    | keep f => exact .kept f
    | take localPort => exact .taken localPort
  | fetch | resolve | scanKeys | probe => exact .outside _ nofun

theorem answers_machine_concat {start now' : Gateway.State} {c : Call Answer}
    {after : List (Call Answer)}
    (h : Answers (machine outside) (start, []) (front ++ [c]) (now', after)) :
    ∃ now, Answers (machine outside) (start, []) front (now, front) ∧
      Responds outside front now c now' := by
  obtain ⟨⟨now, before⟩, answered, last⟩ := h.exists_of_append
  obtain rfl : before = front := answers_machine_log answered
  refine ⟨now, answered, ?_⟩
  cases last with
  | cons rest =>
    cases rest
    exact responds_respond before now _

end Machine

section Serving

variable {calls : List (Call Answer)}

def Request.isIdle : Request → Bool
  | .gateway (.launch arguments) => arguments.head? != some "-O"
  | .gateway .reservePort | .gateway .control => true
  | .gateway _ => false
  | _ => true

/-- What a call of a scan comes to, with `control` for the connection to the gateway. -/
inductive Serves (g : Gateway) (control : Option String) :
    Call (Fleet.Answer (S := SshSession)) → List (Call Answer) → Prop
  | unconnected (address : String) (port : UInt16) (e : Failure) (down : control = none) :
      Serves g control ⟨.endpoint address port, .error e⟩ [⟨.gateway .control, none⟩]
  | unreserved (address : String) (port : UInt16) (e cause : Failure) {socket : String}
      (up : control = some socket) :
      Serves g control ⟨.endpoint address port, .error e⟩
        [⟨.gateway .control, some socket⟩, ⟨.gateway .reservePort, .error cause⟩]
  | refused (f : Forward) (e : Failure) (run : Launch) {socket : String}
      (up : control = some socket) (failed : run.isSuccess = false) :
      Serves g control ⟨.endpoint f.address f.port, .error e⟩
        [⟨.gateway .control, some socket⟩, ⟨.gateway .reservePort, .ok f.localPort⟩,
          ⟨.gateway (.launch
            ("-O" :: "forward" :: "-L" :: f.spec :: g.connectionArguments socket)), run⟩]
  | opened (f : Forward) (run : Launch) {socket : String} (up : control = some socket)
      (succeeded : run.isSuccess = true) :
      Serves g control ⟨.endpoint f.address f.port, .ok ⟨"127.0.0.1", f.localPort⟩⟩
        [⟨.gateway .control, some socket⟩, ⟨.gateway .reservePort, .ok f.localPort⟩,
          ⟨.gateway (.launch
            ("-O" :: "forward" :: "-L" :: f.spec :: g.connectionArguments socket)), run⟩,
          ⟨.gateway (.keep f), ()⟩]
  | ignored (e : Endpoint) :
      Serves g control ⟨.release e, ()⟩
        [⟨.gateway (.take e.port), none⟩, ⟨.gateway .control, control⟩]
  | released (e : Endpoint) (f : Forward) (run : Launch) {socket : String}
      (up : control = some socket) :
      Serves g control ⟨.release e, ()⟩
        [⟨.gateway (.take e.port), some f⟩, ⟨.gateway .control, some socket⟩,
          ⟨.gateway (.launch
            ("-O" :: "cancel" :: "-L" :: f.spec :: g.connectionArguments socket)), run⟩]
  | other {c : Call (Fleet.Answer (S := SshSession))} {calls : List (Call Answer)}
      (unrelated : match c.request with
        | .endpoint _ _ | .release _ => False
        | _ => True)
      (idle : ∀ call ∈ calls, call.request.isIdle = true) : Serves g control c calls

/-- A release that takes a forward away and finds no connection on which to cancel it. -/
def Dropped (calls : List (Call Answer)) : Prop :=
  ∃ localPort f, calls = [⟨.gateway (.take localPort), some f⟩, ⟨.gateway .control, none⟩]

end Serving

section Gateway

def ofGateway : Call Gateway.Answer → Call Answer
  | ⟨r, answer⟩ => ⟨.gateway r, answer⟩

theorem makes_throughGateway {α : Type} {steps : Gateway.Steps α} {calls : List (Call Answer)} {a : α}
    (h : Makes (throughGateway steps) calls a) :
    ∃ inner, Makes steps inner a ∧ calls = inner.map ofGateway := by
  obtain ⟨inner, parts, made, rfl, each⟩ := makes_run h
  refine ⟨inner, made, ?_⟩
  clear made h
  induction each with
  | nil => rfl
  | cons asked _ ih => rw [List.flatten_cons, makes_request_iff.1 asked, ih]; rfl

variable {g : Gateway} {calls : List (Call Gateway.Answer)}

theorem makes_changeForward {socket : String} {op : Gateway.Operation} {f : Forward}
    {result : Except Failure Unit} (h : Makes (g.changeForward socket op f) calls result) :
    ∃ run : Launch, calls = [⟨.launch (g.forwardArguments socket op f), run⟩] ∧
      (run.isSuccess = true ↔ result = .ok ()) := by
  obtain ⟨first, run, rest, rfl, asked, ended⟩ := makes_bind_iff.1 h
  obtain rfl := makes_request_iff.1 asked
  cases run with
  | missing =>
    obtain ⟨rfl, rfl⟩ := makes_pure_iff.1 ended
    exact ⟨.missing, rfl, nofun, nofun⟩
  | finished r =>
    cases succeeded : r.status.isSuccess with
    | true =>
      simp only [succeeded, if_true] at ended
      obtain ⟨rfl, rfl⟩ := makes_pure_iff.1 ended
      exact ⟨.finished r, rfl, fun _ => rfl, fun _ => succeeded⟩
    | false =>
      simp only [succeeded, Bool.false_eq_true, if_false] at ended
      obtain ⟨rfl, rfl⟩ := makes_pure_iff.1 ended
      exact ⟨.finished r, rfl, fun h => absurd (succeeded.symm.trans h) Bool.false_ne_true, nofun⟩

theorem exists_serves_endpoint {address : String} {port : UInt16} {result : Except Failure Endpoint}
    (h : Makes (g.endpoint address port) calls result) :
    ∃ control, Serves g control ⟨.endpoint address port, result⟩ (calls.map ofGateway) := by
  obtain ⟨_, control, _, rfl, asked, reserving⟩ := makes_bind_iff.1 h
  obtain rfl := makes_request_iff.1 asked
  cases control with
  | none =>
    obtain ⟨rfl, rfl⟩ := makes_pure_iff.1 reserving
    exact ⟨none, .unconnected address port _ rfl⟩
  | some socket =>
    obtain ⟨_, reserved, _, rfl, asked, opening⟩ := makes_bind_iff.1 reserving
    obtain rfl := makes_request_iff.1 asked
    cases reserved with
    | error cause =>
      obtain ⟨rfl, rfl⟩ := makes_pure_iff.1 opening
      exact ⟨some socket, .unreserved address port _ cause rfl⟩
    | ok localPort =>
      obtain ⟨_, forwarded, _, rfl, changed, keeping⟩ := makes_bind_iff.1 opening
      obtain ⟨run, rfl, success⟩ := makes_changeForward changed
      cases forwarded with
      | error e =>
        obtain ⟨rfl, rfl⟩ := makes_pure_iff.1 keeping
        have failed : run.isSuccess = false := Bool.eq_false_iff.2 fun h => nomatch success.1 h
        exact ⟨some socket, .refused ⟨localPort, address, port⟩ _ run rfl failed⟩
      | ok =>
        obtain ⟨_, _, _, rfl, kept, ended⟩ := makes_bind_iff.1 keeping
        obtain rfl := makes_request_iff.1 kept
        obtain ⟨rfl, rfl⟩ := makes_pure_iff.1 ended
        exact ⟨some socket, .opened ⟨localPort, address, port⟩ run rfl (success.2 rfl)⟩

theorem exists_serves_release {e : Endpoint} (h : Makes (g.release e) calls ()) :
    (∃ control, Serves g control ⟨.release e, ()⟩ (calls.map ofGateway)) ∨
      Dropped (calls.map ofGateway) := by
  obtain ⟨_, found, _, rfl, taken, connecting⟩ := makes_bind_iff.1 h
  obtain rfl := makes_request_iff.1 taken
  obtain ⟨_, control, _, rfl, asked, cancelling⟩ := makes_bind_iff.1 connecting
  obtain rfl := makes_request_iff.1 asked
  cases found with
  | none =>
    obtain ⟨rfl, -⟩ := makes_pure_iff.1 cancelling
    exact .inl ⟨control, .ignored e⟩
  | some f =>
    cases control with
    | none =>
      obtain ⟨rfl, -⟩ := makes_pure_iff.1 cancelling
      exact .inr ⟨e.port, f, rfl⟩
    | some socket =>
      obtain ⟨_, _, _, rfl, changed, ended⟩ := makes_bind_iff.1 cancelling
      obtain ⟨run, rfl, -⟩ := makes_changeForward changed
      obtain ⟨rfl, -⟩ := makes_pure_iff.1 ended
      exact .inl ⟨some socket, .released e f run rfl⟩

end Gateway

section Scans

variable {s : Source} {g : Gateway} {o : SshOptions} {calls : List (Call Answer)}

theorem idle_runCommand {session : SshSession} {command : String}
    {result : Except Failure Remote.CommandOutput}
    (h : Makes (session.run launch command) calls result) :
    ∀ c ∈ calls, c.request.isIdle = true := by
  unfold SshSession.run at h
  split at h
  · obtain ⟨rfl, -⟩ := makes_pure_iff.1 h
    exact List.forall_mem_nil _
  · obtain ⟨first, run, rest, rfl, launched, ended⟩ := makes_bind_iff.1 h
    obtain ⟨rfl, -⟩ := makes_pure_iff.1 ended
    obtain rfl := makes_request_iff.1 launched
    exact List.forall_mem_singleton.2 rfl

theorem exists_serves (through : s.gateway? = some g) {c : Call (Fleet.Answer (S := SshSession))}
    (own : ¬ IsShared c) (h : Makes (s.handle o c.request) calls c.answer) :
    (∃ control, Serves g control c calls) ∨ Dropped calls := by
  obtain ⟨r, answer⟩ := c
  have idle {r : Request} {answer : Answer r} (h : Makes (ask r) calls answer)
      (harmless : r.isIdle = true) : ∀ c ∈ calls, c.request.isIdle = true := by
    obtain rfl := makes_request_iff.1 h
    exact List.forall_mem_singleton.2 harmless
  cases r with
  | setUp => exact absurd (.inl rfl) own
  | listHosts => exact absurd (.inr (.inl rfl)) own
  | cleanUp => exact absurd (.inr (.inr rfl)) own
  | openSession target address =>
    obtain ⟨first, session, rest, rfl, opened, ended⟩ := makes_bind_iff.1 h
    obtain ⟨rfl, -⟩ := makes_pure_iff.1 ended
    rw [openSession, through] at opened
    obtain ⟨asking, control, rest, rfl, asked, ended⟩ := makes_bind_iff.1 opened
    obtain ⟨rfl, -⟩ := makes_pure_iff.1 ended
    obtain rfl := makes_request_iff.1 asked
    exact .inl ⟨none, .other trivial (List.forall_mem_singleton.2 rfl)⟩
  | runCommand session command => exact .inl ⟨none, .other trivial (idle_runCommand h)⟩
  | closeSession session =>
    obtain ⟨rfl, -⟩ := makes_pure_iff.1 h
    exact .inl ⟨none, .other trivial (List.forall_mem_nil _)⟩
  | endpoint address port =>
    rw [handle, endpoint, through] at h
    obtain ⟨inner, made, rfl⟩ := makes_throughGateway h
    exact .inl (exists_serves_endpoint made)
  | release e =>
    rw [handle, release, through] at h
    obtain ⟨inner, made, rfl⟩ := makes_throughGateway h
    exact exists_serves_release made
  | resolve host => exact .inl ⟨none, .other trivial (idle h rfl)⟩
  | scanKeys endpoint => exact .inl ⟨none, .other trivial (idle h rfl)⟩
  | probe e => exact .inl ⟨none, .other trivial (idle h rfl)⟩

end Scans

end Fleet.Source
end FleetPosture

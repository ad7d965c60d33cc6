import FleetPosture.Tls.Exchange

/-! What a server says, apart from any offer: the handshake messages that its records bring, and
what ends them. The verdict on an offer is found by going through these messages, so what two offers
are told by the same bytes can be compared message by message. -/

namespace FleetPosture.Tls

open Text (Bytes)
open Net (StreamEnd)

def ProtocolVersion.wire : ProtocolVersion → UInt16
  | .ssl30 => 0x0300
  | .tls10 => 0x0301
  | .tls11 => 0x0302
  | .tls12 => 0x0303
  | .tls13 => 0x0304

theorem ProtocolVersion.code_eq_wire (v : ProtocolVersion) : v.code = v.wire := by cases v <;> rfl

inductive FlightEnd
  | cut
  | alert
  | foreign
deriving DecidableEq, Repr

/-- The messages that the records of a stream bring, with what has arrived before, and what ends
them. -/
def arrivals (buffer : HandshakeBuffer) (s : Bytes) : List Message × FlightEnd :=
  match _h : readRecord s with
  | .cut => ([], .cut)
  | .alert => ([], .alert)
  | .foreign => ([], .foreign)
  | .handshake content rest =>
    let buffer := buffer.push content
    if 262144 < buffer.bytes.length then ([], .foreign)
    else
      let (messages, buffer) := buffer.messages
      let (later, ending) := arrivals buffer rest
      (messages ++ later, ending)
termination_by s.length
decreasing_by have := length_of_readRecord _h; omega

def Flight.conclude (f : Flight) (ending : StreamEnd) : FlightEnd → Reply
  | .cut => f.cut ending
  | .alert => if f.isAccepted then .accepted f.details else .refused
  | .foreign => .notTls

def judge (o : Offer) (ending : StreamEnd) (stop : FlightEnd) : Flight → List Message → Reply
  | f, [] => f.conclude ending stop
  | f, m :: ms =>
    match f.step o m with
    | .error reply => reply
    | .ok f => judge o ending stop f ms

def heard (o : Offer) : Flight → List Message → List Message
  | _, [] => []
  | f, m :: ms =>
    match f.step o m with
    | .error _ => [m]
    | .ok f => m :: heard o f ms

variable {o : Offer} {ending : StreamEnd} {stop : FlightEnd} {f g : Flight} {m : Message}
  {ms : List Message} {reply : Reply}

theorem judge_of_step_ok (h : f.step o m = .ok g) :
    judge o ending stop f (m :: ms) = judge o ending stop g ms := by rw [judge, h]

theorem judge_of_step_error (h : f.step o m = .error reply) :
    judge o ending stop f (m :: ms) = reply := by rw [judge, h]

theorem heard_of_step_ok (h : f.step o m = .ok g) :
    heard o f (m :: ms) = m :: heard o g ms := by rw [heard, h]

theorem heard_of_step_error (h : f.step o m = .error reply) : heard o f (m :: ms) = [m] := by
  rw [heard, h]

theorem mem_heard_cons : m ∈ heard o f (m :: ms) := by
  cases h : f.step o m with
  | error reply =>
    rw [heard_of_step_error h]
    exact List.mem_singleton_self m
  | ok g =>
    rw [heard_of_step_ok h]
    exact List.mem_cons_self

theorem judge_append (f : Flight) (ms later : List Message) :
    judge o ending stop f (ms ++ later) =
      match ms.foldlM (Flight.step o) f with
      | .error reply => reply
      | .ok g => judge o ending stop g later := by
  induction ms generalizing f with
  | nil => rfl
  | cons m ms ih =>
    rw [List.cons_append, List.foldlM_cons]
    cases h : f.step o m with
    | error reply =>
      rw [judge_of_step_error h]
      rfl
    | ok g =>
      rw [judge_of_step_ok h]
      exact ih g

theorem exchange_turn (f : Flight) (buffer : HandshakeBuffer) (s : Bytes) :
    exchange o ending f buffer s =
      match readRecord s with
      | .cut => f.conclude ending .cut
      | .alert => f.conclude ending .alert
      | .foreign => .notTls
      | .handshake content rest =>
        if maxFlight < (buffer.push content).bytes.length then .notTls
        else
          match (buffer.push content).messages.1.foldlM (Flight.step o) f with
          | .error reply => reply
          | .ok g => exchange o ending g (buffer.push content).messages.2 rest := by
  rw [exchange]
  split <;> next h => rw [h] <;> rfl

/-- The exchange hears the messages of the stream in turn, whatever the records they come in. -/
theorem exchange_eq_judge (f : Flight) (buffer : HandshakeBuffer) (s : Bytes) :
    exchange o ending f buffer s =
      judge o ending (arrivals buffer s).2 f (arrivals buffer s).1 := by
  fun_induction arrivals buffer s generalizing f with
  | case1 buffer s h => rw [exchange_turn, h]; rfl
  | case2 buffer s h => rw [exchange_turn, h]; rfl
  | case3 buffer s h => rw [exchange_turn, h]; rfl
  | case4 buffer s content rest h _ oversized =>
    rw [exchange_turn, h]
    exact if_pos oversized
  | case5 buffer s content rest h _ fits messages left split later stop tail ih =>
    rw [exchange_turn, h]
    dsimp only
    rw [if_neg (show ¬ maxFlight < (buffer.push content).bytes.length from fits), split,
      judge_append]
    cases messages.foldlM (Flight.step o) f with
    | error reply => rfl
    | ok g =>
      have rest_eq := ih g
      rwa [tail] at rest_eq

end FleetPosture.Tls

import FleetPosture.Proofs.SortedMap
import FleetPosture.Tls.Probe

/-! What a survey of a server knows at every moment: its tables and flags are functions of the
attempts made so far, and it stops early only after three answers that were not TLS. -/

namespace FleetPosture.Tls

structure Attempt where
  version : ProtocolVersion
  suite : CipherSuite
  wantDetails : Bool
  reply : Reply
deriving DecidableEq

namespace Attempt

def offer (a : Attempt) : Offer := ⟨a.version, a.suite.id, a.wantDetails⟩

def pair (a : Attempt) : ProtocolVersion × CipherSuite := (a.version, a.suite)

def isAccepted (a : Attempt) : Bool :=
  match a.reply with
  | .accepted _ => true
  | _ => false

def details? (a : Attempt) : Option FlightDetails :=
  match a.reply with
  | .accepted details => if a.wantDetails then some details else none
  | _ => none

end Attempt

def offersOf (t : List Attempt) : List Offer := (t.map Attempt.offer).reverse

def shown? (t : List Attempt) : Option FlightDetails := t.findSome? Attempt.details?

def nextOffer (t : List Attempt) (v : ProtocolVersion) (suite : CipherSuite) : Offer :=
  ⟨v, suite.id, (shown? t).isNone && v != .tls13⟩

/-- Attempts as a prober makes them in turn, with the replies of the server to them. -/
inductive Answered (server : Server) : List Attempt → Prop
  | nil : Answered server []
  | snoc {t : List Attempt} {a : Attempt} (before : Answered server t)
      (asked : a.offer = nextOffer t a.version a.suite)
      (reply : server.reply (offersOf t) a.offer = .ok a.reply) : Answered server (t ++ [a])

def acceptedUnder (t : List Attempt) (label : String) : List AcceptedCipher :=
  (t.filter fun a => a.version.label = label && a.isAccepted).map fun a => a.suite.accepted

def listed (ciphers : List AcceptedCipher) : Option (List AcceptedCipher) :=
  if ciphers = [] then none else some ciphers

theorem getD_listed (ciphers : List AcceptedCipher) : (listed ciphers).getD [] = ciphers := by
  unfold listed
  split
  case isTrue h => rw [h, Option.getD_none]
  case isFalse => rfl

theorem listed_concat (ciphers : List AcceptedCipher) (c : AcceptedCipher) :
    listed (ciphers ++ [c]) = some (ciphers ++ [c]) := if_neg (by simp)

theorem offersOf_concat (t : List Attempt) (a : Attempt) :
    offersOf (t ++ [a]) = a.offer :: offersOf t := by simp [offersOf]

theorem shown?_concat (t : List Attempt) (a : Attempt) :
    shown? (t ++ [a]) = (shown? t).or a.details? := by
  simp [shown?, List.findSome?_append]

theorem acceptedUnder_concat (t : List Attempt) (a : Attempt) (label : String) :
    acceptedUnder (t ++ [a]) label = acceptedUnder t label ++
      if a.version.label = label ∧ a.isAccepted then [a.suite.accepted] else [] := by
  unfold acceptedUnder
  rw [List.filter_append, List.map_append]
  congr 1
  by_cases h : a.version.label = label ∧ a.isAccepted
  · rw [if_pos h]
    simp [h]
  · rw [if_neg h]
    simpa using h

structure Survey.Reflects (s : Survey) (t : List Attempt) : Prop where
  offers : s.offers = offersOf t
  details : s.details = shown? t
  sawTls : s.sawTls ↔ ∃ a ∈ t, a.reply ≠ .notTls
  ciphers : ∀ label, s.ciphers.get? label = listed (acceptedUnder t label)

namespace Survey.Reflects

variable {s : Survey} {t : List Attempt}

theorem start : Survey.start.Reflects [] where
  offers := rfl
  details := rfl
  sawTls := by simp [Survey.start]
  ciphers _ := rfl

theorem offer_eq (h : s.Reflects t) (v : ProtocolVersion) (suite : CipherSuite) :
    s.offer v suite = nextOffer t v suite := by
  rw [Survey.offer, h.details, nextOffer]

theorem isHopeless_iff (h : s.Reflects t) :
    s.isHopeless ↔ 3 ≤ t.length ∧ ∀ a ∈ t, a.reply = .notTls := by
  have length : s.offers.length = t.length := by simp [h.offers, offersOf]
  have silent : s.sawTls = false ↔ ∀ a ∈ t, a.reply = .notTls := by
    rw [← Bool.not_eq_true, h.sawTls]
    simp
  rw [Survey.isHopeless, Bool.and_eq_true, Bool.not_eq_true', silent, decide_eq_true_iff, length,
    notTlsCutoff, and_comm]

theorem record (h : s.Reflects t) {a : Attempt}
    (asked : a.offer = nextOffer t a.version a.suite) :
    (s.record a.suite a.offer a.reply).Reflects (t ++ [a]) := by
  have wanted : a.wantDetails = ((shown? t).isNone && a.version != .tls13) :=
    congrArg Offer.wantDetails asked
  obtain ⟨version, suite, wantDetails, reply⟩ := a
  cases reply with
  | accepted details =>
    constructor
    case offers => rw [offersOf_concat, ← h.offers]; rfl
    case details =>
      rw [shown?_concat, ← h.details]
      rw [← h.details] at wanted
      cases hd : s.details with
      | none => simp [Survey.record, Attempt.offer, Attempt.details?, hd]
      | some d =>
        -- once known, details are not asked for again
        have unwanted : wantDetails = false := by simpa [hd] using wanted
        simp [Survey.record, Attempt.offer, unwanted, hd]
    case sawTls => simp [Survey.record]
    case ciphers =>
      intro label
      rw [acceptedUnder_concat]
      change (s.ciphers.alter version.label _).get? label = _
      rw [SortedMap.get?_alter, h.ciphers, h.ciphers]
      by_cases hl : version.label = label
      · subst hl
        rw [if_pos rfl, if_pos ⟨rfl, rfl⟩, getD_listed, listed_concat]
      · rw [if_neg fun e => hl e.symm, if_neg fun e => hl e.1, List.append_nil]
  | refused =>
    constructor
    case offers => rw [offersOf_concat, ← h.offers]; rfl
    case details => rw [shown?_concat, ← h.details]; exact (Option.or_none).symm
    case sawTls => simp [Survey.record]
    case ciphers =>
      intro label
      rw [acceptedUnder_concat, if_neg (by simp [Attempt.isAccepted]), List.append_nil]
      exact h.ciphers label
  | notTls =>
    constructor
    case offers => rw [offersOf_concat, ← h.offers]; rfl
    case details => rw [shown?_concat, ← h.details]; exact (Option.or_none).symm
    case sawTls => simpa [Survey.record, or_and_right, exists_or] using h.sawTls
    case ciphers =>
      intro label
      rw [acceptedUnder_concat, if_neg (by simp [Attempt.isAccepted]), List.append_nil]
      exact h.ciphers label

end Survey.Reflects

/-- The first three answers, if there are as many, are not all something other than TLS. -/
def Alive (t : List Attempt) : Prop := 3 ≤ t.length → ∃ a ∈ t.take 3, a.reply ≠ .notTls

theorem Alive.nil : Alive [] := fun h => absurd h (by decide)

theorem Alive.length_of_silent {t : List Attempt} {a : Attempt} (alive : Alive t)
    (long : 3 ≤ (t ++ [a]).length) (silent : ∀ b ∈ t ++ [a], b.reply = .notTls) :
    (t ++ [a]).length = 3 := by
  rcases Nat.lt_or_ge t.length 3 with short | enough
  · rw [List.length_append, List.length_singleton] at long ⊢
    omega
  · obtain ⟨b, hb, tls⟩ := alive enough
    exact absurd (silent b (List.mem_append_left _ (List.mem_of_mem_take hb))) tls

theorem Alive.concat {t : List Attempt} {a : Attempt} (alive : Alive t)
    (h : 3 ≤ (t ++ [a]).length → ∃ b ∈ t ++ [a], b.reply ≠ .notTls) : Alive (t ++ [a]) := by
  intro long
  rcases Nat.lt_or_ge t.length 3 with short | enough
  · rw [List.take_of_length_le (by rw [List.length_append, List.length_singleton]; omega)]
    exact h long
  · rw [List.take_append_of_le_length enough]
    exact alive enough

/-- How a survey of a server along a plan ends: with a connection that fails, with the insight that
the port does not speak TLS, or with the plan carried out. -/
inductive Outcome (server : Server) (plan : List (ProtocolVersion × CipherSuite)) :
    List Attempt → Option Net.ConnectError → Prop
  | failed {t : List Attempt} {v : ProtocolVersion} {suite : CipherSuite}
      {rest : List (ProtocolVersion × CipherSuite)} {e : Net.ConnectError}
      (made : t.map Attempt.pair ++ (v, suite) :: rest = plan) (alive : Alive t)
      (reply : server.reply (offersOf t) (nextOffer t v suite) = .error e) :
      Outcome server plan t (some e)
  | givenUp {t : List Attempt} {rest : List (ProtocolVersion × CipherSuite)}
      (made : t.map Attempt.pair ++ rest = plan) (three : t.length = 3)
      (silent : ∀ a ∈ t, a.reply = .notTls) : Outcome server plan t none
  | finished {t : List Attempt} (made : t.map Attempt.pair = plan) (alive : Alive t) :
      Outcome server plan t none

theorem survey_cons_error {server : Server} {s : Survey} {v : ProtocolVersion} {suite : CipherSuite}
    {e : Net.ConnectError} (h : server.reply s.offers (s.offer v suite) = .error e)
    (rest : List (ProtocolVersion × CipherSuite)) :
    survey server ((v, suite) :: rest) s = (s, some e) := by
  rw [survey, h]

theorem survey_cons_ok {server : Server} {s : Survey} {v : ProtocolVersion} {suite : CipherSuite}
    {reply : Reply} (h : server.reply s.offers (s.offer v suite) = .ok reply)
    (rest : List (ProtocolVersion × CipherSuite)) :
    survey server ((v, suite) :: rest) s =
      if (s.record suite (s.offer v suite) reply).isHopeless then
        (s.record suite (s.offer v suite) reply, none)
      else survey server rest (s.record suite (s.offer v suite) reply) := by
  rw [survey, h]

theorem exists_outcome (server : Server) (rest : List (ProtocolVersion × CipherSuite))
    {s : Survey} {t : List Attempt} (answered : Answered server t) (reflects : s.Reflects t)
    (alive : Alive t) :
    ∃ t', Answered server t' ∧ (survey server rest s).1.Reflects t' ∧
      Outcome server (t.map Attempt.pair ++ rest) t' (survey server rest s).2 := by
  induction rest generalizing s t with
  | nil => exact ⟨t, answered, reflects, .finished (List.append_nil _).symm alive⟩
  | cons p rest ih =>
    obtain ⟨v, suite⟩ := p
    cases hr : server.reply s.offers (s.offer v suite) with
    | error e =>
      rw [survey_cons_error hr]
      rw [reflects.offer_eq, reflects.offers] at hr
      exact ⟨t, answered, reflects, .failed rfl alive hr⟩
    | ok reply =>
      let a : Attempt := ⟨v, suite, (s.offer v suite).wantDetails, reply⟩
      have asked : a.offer = nextOffer t v suite := reflects.offer_eq v suite
      have answered' : Answered server (t ++ [a]) := .snoc answered asked (reflects.offers ▸ hr)
      have reflects' : (s.record suite (s.offer v suite) reply).Reflects (t ++ [a]) :=
        reflects.record (a := a) asked
      have made : t.map Attempt.pair ++ (v, suite) :: rest = (t ++ [a]).map Attempt.pair ++ rest := by
        rw [List.map_append, List.append_assoc]
        rfl
      rw [survey_cons_ok hr, made]
      -- up to here the first three replies were not all silent, so giving up means the third one
      by_cases hopeless : (s.record suite (s.offer v suite) reply).isHopeless
      · obtain ⟨long, silent⟩ := reflects'.isHopeless_iff.1 hopeless
        rw [if_pos hopeless]
        exact ⟨t ++ [a], answered', reflects',
          .givenUp rfl (alive.length_of_silent long silent) silent⟩
      · rw [if_neg hopeless]
        refine ih answered' reflects' (alive.concat fun long => ?_)
        have loud := fun silent => hopeless (reflects'.isHopeless_iff.2 ⟨long, silent⟩)
        simpa using loud

end FleetPosture.Tls

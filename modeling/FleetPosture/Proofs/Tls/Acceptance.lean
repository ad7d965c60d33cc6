import FleetPosture.Proofs.Tls.Flight
import Mathlib.Logic.Basic

/-! When an accepted offer was accepted by the server. A ServerHello with the offered version and
suite accepts it; but a ServerHelloDone is taken for the end of an accepted flight even where no
ServerHello came before it. And a flight that is read on for its details can be spoiled by what
comes after the ServerHello that accepted the offer. -/

namespace FleetPosture.Tls

open Text (Bytes)
open Net (StreamEnd)

def Reply.isAccepted : Reply → Bool
  | .accepted _ => true
  | _ => false

namespace Message

def IsHello (m : Message) : Prop := m.kind = 2

def IsDone (m : Message) : Prop := m.kind = 14

def Confirms (m : Message) (o : Offer) : Prop :=
  m.IsHello ∧ ServerHello.parse? m.body = some ⟨o.version.wire, o.suite⟩

instance (m : Message) : Decidable m.IsHello := inferInstanceAs (Decidable (_ = _))

instance (m : Message) : Decidable m.IsDone := inferInstanceAs (Decidable (_ = _))

instance (m : Message) (o : Offer) : Decidable (m.Confirms o) := inferInstanceAs (Decidable (_ ∧ _))

theorem IsDone.not_isHello {m : Message} (done : m.IsDone) : ¬ m.IsHello := by
  intro hello
  exact absurd (done.symm.trans hello) (by decide)

end Message

def EndsUnopened (ms : List Message) : Prop :=
  ∃ before done after, ms = before ++ done :: after ∧ done.IsDone ∧ ∀ m ∈ before, ¬ m.IsHello

/-- What comes after an accepting ServerHello takes the acceptance back: before the flight is
declared complete there is a ServerHello of another kind, or something that is not TLS. -/
def Spoiled (o : Offer) (ms : List Message) (stop : FlightEnd) : Prop :=
  (∃ m ∈ ms.takeWhile (¬ ·.IsDone), m.IsHello ∧ ¬ m.Confirms o) ∨
    stop = .foreign ∧ ∀ m ∈ ms, ¬ m.IsDone

def SpoiledOnceOpened (o : Offer) (ms : List Message) (stop : FlightEnd) : Prop :=
  ∃ before hello after, ms = before ++ hello :: after ∧ (∀ m ∈ before, ¬ m.IsHello ∧ ¬ m.IsDone) ∧
    hello.Confirms o ∧ Spoiled o after stop

variable {o : Offer} {ending : StreamEnd} {stop : FlightEnd} {f : Flight} {m : Message}
  {ms : List Message}

theorem endsUnopened_cons :
    EndsUnopened (m :: ms) ↔ m.IsDone ∨ ¬ m.IsHello ∧ EndsUnopened ms := by
  constructor
  · rintro ⟨before, done, after, split, hdone, unopened⟩
    cases before with
    | nil =>
      obtain ⟨rfl, -⟩ := List.cons.inj split
      exact .inl hdone
    | cons b before =>
      obtain ⟨rfl, rfl⟩ := List.cons.inj split
      exact .inr ⟨unopened _ List.mem_cons_self,
        before, done, after, rfl, hdone, fun x hx => unopened x (List.mem_cons_of_mem _ hx)⟩
  · rintro (hdone | ⟨other, before, done, after, rfl, hdone, unopened⟩)
    · exact ⟨[], m, ms, rfl, hdone, fun _ h => absurd h List.not_mem_nil⟩
    · exact ⟨m :: before, done, after, rfl, hdone, List.forall_mem_cons.2 ⟨other, unopened⟩⟩

theorem not_endsUnopened_nil : ¬ EndsUnopened [] := by
  rintro ⟨before, done, after, split, -⟩
  exact List.append_ne_nil_of_right_ne_nil before (List.cons_ne_nil done after) split.symm

theorem spoiled_nil : Spoiled o [] stop ↔ stop = .foreign := by simp [Spoiled]

theorem spoiled_cons :
    Spoiled o (m :: ms) stop ↔ ¬ m.IsDone ∧ (m.IsHello ∧ ¬ m.Confirms o ∨ Spoiled o ms stop) := by
  by_cases done : m.IsDone
  · simp [Spoiled, done]
  · simp [Spoiled, done, or_assoc]

theorem spoiledOnceOpened_nil : ¬ SpoiledOnceOpened o [] stop := by
  rintro ⟨before, hello, after, split, -⟩
  exact List.append_ne_nil_of_right_ne_nil before (List.cons_ne_nil hello after) split.symm

theorem spoiledOnceOpened_cons :
    SpoiledOnceOpened o (m :: ms) stop ↔
      m.Confirms o ∧ Spoiled o ms stop ∨ ¬ m.IsHello ∧ ¬ m.IsDone ∧ SpoiledOnceOpened o ms stop := by
  constructor
  · rintro ⟨before, hello, after, split, unopened, confirms, spoiled⟩
    cases before with
    | nil =>
      obtain ⟨rfl, rfl⟩ := List.cons.inj split
      exact .inl ⟨confirms, spoiled⟩
    | cons b before =>
      obtain ⟨rfl, rfl⟩ := List.cons.inj split
      obtain ⟨h, unopened⟩ := List.forall_mem_cons.1 unopened
      exact .inr ⟨h.1, h.2, before, hello, after, rfl, unopened, confirms, spoiled⟩
  · rintro (⟨confirms, spoiled⟩ | ⟨hello, done, before, h, after, rfl, unopened, confirms, spoiled⟩)
    · exact ⟨[], m, ms, rfl, fun _ h => absurd h List.not_mem_nil, confirms, spoiled⟩
    · exact ⟨m :: before, h, after, rfl, List.forall_mem_cons.2 ⟨⟨hello, done⟩, unopened⟩, confirms,
        spoiled⟩

namespace Flight

theorem step_confirms (h : m.Confirms o) :
    f.step o m =
      if !o.wantDetails ∨ o.version = .tls13 then .error (.accepted f.details)
      else .ok { f with isAccepted := true } := by
  obtain ⟨hello, parsed⟩ := h
  have kind : m.kind = serverHello := hello
  rw [step, if_pos kind, parsed]
  simp [ProtocolVersion.code_eq_wire]

theorem step_mismatch (hello : m.IsHello) (h : ¬ m.Confirms o) :
    ∃ reply : Reply, f.step o m = .error reply ∧ reply.isAccepted = false := by
  have kind : m.kind = serverHello := hello
  rw [step, if_pos kind, o.version.code_eq_wire]
  cases parsed : ServerHello.parse? m.body with
  | none => exact ⟨.notTls, rfl, rfl⟩
  | some sh =>
    have differs : sh.version ≠ o.version.wire ∨ sh.suite ≠ o.suite := by
      rw [← not_and_or]
      rintro ⟨version, suite⟩
      exact h ⟨hello, by rw [parsed, ← version, ← suite]⟩
    exact ⟨.refused, if_pos differs, rfl⟩

theorem step_done (done : m.IsDone) : f.step o m = .error (.accepted f.details) := by
  have kind : m.kind = serverHelloDone := done
  rw [step, kind]
  rfl

theorem step_passes (f : Flight) (hello : ¬ m.IsHello) (done : ¬ m.IsDone) :
    ∃ g : Flight, (∀ o, f.step o m = .ok g) ∧ g.isAccepted = f.isAccepted := by
  have kind : ¬ m.kind = serverHello := hello
  have kind' : ¬ m.kind = serverHelloDone := done
  simp only [step, if_neg kind, if_neg kind']
  split
  · exact ⟨_, fun _ => rfl, rfl⟩
  · split
    · exact ⟨_, fun _ => rfl, rfl⟩
    · exact ⟨f, fun _ => rfl, rfl⟩

theorem isAccepted_conclude :
    (f.conclude ending stop).isAccepted ↔ f.isAccepted ∧ stop ≠ .foreign := by
  cases stop <;> cases ending <;> cases h : f.isAccepted <;>
    simp [conclude, cut, h, Reply.isAccepted]

end Flight

theorem isAccepted_iff {reply : Reply} : reply.isAccepted ↔ ∃ details, reply = .accepted details := by
  cases reply <;> simp [Reply.isAccepted]

theorem exists_confirms (unopened : f.isAccepted = false) (opens : ¬ EndsUnopened ms)
    (accepted : (judge o ending stop f ms).isAccepted) : ∃ m ∈ heard o f ms, m.Confirms o := by
  induction ms generalizing f with
  | nil =>
    have opened : f.isAccepted := (Flight.isAccepted_conclude.1 accepted).1
    rw [unopened] at opened
    exact absurd opened (by decide)
  | cons m ms ih =>
    obtain ⟨done, opens⟩ := not_or.1 (mt endsUnopened_cons.2 opens)
    by_cases hello : m.IsHello
    · by_cases confirms : m.Confirms o
      · exact ⟨m, mem_heard_cons, confirms⟩
      · obtain ⟨reply, step, refused⟩ := Flight.step_mismatch (f := f) hello confirms
        rw [judge_of_step_error step, refused] at accepted
        exact absurd accepted (by decide)
    · obtain ⟨g, step, same⟩ := f.step_passes hello done
      rw [judge_of_step_ok (step o)] at accepted
      obtain ⟨c, hc, confirms⟩ := ih (same.trans unopened) (fun h => opens ⟨hello, h⟩) accepted
      rw [heard_of_step_ok (step o)]
      exact ⟨c, List.mem_cons_of_mem m hc, confirms⟩

theorem judge_unopened (h : EndsUnopened ms) :
    (judge o ending stop f ms).isAccepted ∧ ∀ m ∈ heard o f ms, ¬ m.IsHello := by
  induction ms generalizing f with
  | nil => exact absurd h not_endsUnopened_nil
  | cons m ms ih =>
    by_cases done : m.IsDone
    · have step : f.step o m = .error (.accepted f.details) := Flight.step_done done
      rw [judge_of_step_error step, heard_of_step_error step]
      exact ⟨rfl, by simpa using done.not_isHello⟩
    · obtain ⟨hello, h⟩ := (endsUnopened_cons.1 h).resolve_left done
      obtain ⟨g, step, -⟩ := f.step_passes hello done
      rw [judge_of_step_ok (step o), heard_of_step_ok (step o), List.forall_mem_cons]
      obtain ⟨accepted, unheard⟩ := ih (f := g) h
      exact ⟨accepted, hello, unheard⟩

theorem attempt_eq_judge (s : Bytes) :
    attempt o (.ok (s, ending)) =
      .ok (judge o ending (arrivals .empty s).2 .start (arrivals .empty s).1) :=
  congrArg Except.ok (exchange_eq_judge .start .empty s)

theorem attempt_accepted_iff {s : Bytes} :
    (∃ details, attempt o (.ok (s, ending)) = .ok (.accepted details)) ↔
      (judge o ending (arrivals .empty s).2 .start (arrivals .empty s).1).isAccepted := by
  rw [attempt_eq_judge, isAccepted_iff]
  simp only [Except.ok.injEq]

/-- An accepted offer has been confirmed by a ServerHello with its version and suite unless the
server declares its flight complete before any ServerHello. -/
theorem accepted_confirmed_iff (o : Offer) (ending : StreamEnd) (s : Bytes) :
    ((∃ details, attempt o (.ok (s, ending)) = .ok (.accepted details)) →
        ∃ m ∈ heard o .start (arrivals .empty s).1, m.Confirms o) ↔
      ¬ EndsUnopened (arrivals .empty s).1 := by
  rw [attempt_accepted_iff]
  constructor
  · intro sound unopened
    obtain ⟨accepted, unheard⟩ :
        (judge o ending (arrivals .empty s).2 .start (arrivals .empty s).1).isAccepted ∧
          ∀ m ∈ heard o .start (arrivals .empty s).1, ¬ m.IsHello := judge_unopened unopened
    obtain ⟨m, hm, confirms⟩ := sound accepted
    exact unheard m hm confirms.1
  · exact fun opens accepted => exists_confirms rfl opens accepted

def bareDone : Bytes := [0x16, 3, 3] ++ Wire.field 2 (14 :: Wire.field 3 [])

theorem accepted_unconfirmed :
    let o : Offer := ⟨.tls12, 0xc02f, false⟩
    attempt o (.ok (bareDone, .closed)) = .ok (.accepted .none) ∧
      ∀ m ∈ heard o .start (arrivals .empty bareDone).1, ¬ m.Confirms o := by
  intro o
  have accepted : exchange o .closed .start .empty bareDone = .accepted .none := by decide +kernel
  exact ⟨congrArg Except.ok accepted, by decide +kernel⟩

theorem judge_opened_iff (wanted : o.wantDetails) (legacy : o.version ≠ .tls13)
    (opened : f.isAccepted) :
    (judge o ending stop f ms).isAccepted ↔ ¬ Spoiled o ms stop := by
  induction ms generalizing f with
  | nil => rw [judge, Flight.isAccepted_conclude, and_iff_right opened, spoiled_nil]
  | cons m ms ih =>
    rw [spoiled_cons]
    by_cases done : m.IsDone
    · rw [judge_of_step_error (Flight.step_done done)]
      simp [Reply.isAccepted, done]
    · by_cases confirms : m.Confirms o
      · have step : f.step o m = .ok { f with isAccepted := true } := by
          rw [Flight.step_confirms confirms]
          exact if_neg (by simp [wanted, legacy])
        rw [judge_of_step_ok step, ih rfl]
        simp [done, confirms]
      · by_cases hello : m.IsHello
        · obtain ⟨reply, step, refused⟩ := Flight.step_mismatch (f := f) hello confirms
          rw [judge_of_step_error step, refused]
          simp [done, hello, confirms]
        · obtain ⟨g, step, same⟩ := f.step_passes hello done
          rw [judge_of_step_ok (step o), ih (same.trans opened)]
          simp [done, hello]

theorem judge_details_iff :
    (judge { o with wantDetails := true } ending stop f ms).isAccepted ↔
      (judge { o with wantDetails := false } ending stop f ms).isAccepted ∧
        ¬ (o.version ≠ .tls13 ∧ SpoiledOnceOpened o ms stop) := by
  induction ms generalizing f with
  | nil => simp [judge, spoiledOnceOpened_nil]
  | cons m ms ih =>
    rw [spoiledOnceOpened_cons]
    by_cases done : m.IsDone
    · have unconfirmed : ¬ m.Confirms o := fun h => done.not_isHello h.1
      rw [judge_of_step_error (Flight.step_done done), judge_of_step_error (Flight.step_done done)]
      simp [Reply.isAccepted, done, unconfirmed]
    · by_cases confirms : m.Confirms o
      · have plain : f.step { o with wantDetails := false } m = .error (.accepted f.details) :=
          (Flight.step_confirms (o := { o with wantDetails := false }) confirms).trans
            (if_pos (.inl rfl))
        rw [judge_of_step_error plain]
        by_cases modern : o.version = .tls13
        · have detailed : f.step { o with wantDetails := true } m = .error (.accepted f.details) :=
            (Flight.step_confirms (o := { o with wantDetails := true }) confirms).trans
              (if_pos (.inr modern))
          rw [judge_of_step_error detailed]
          simp [modern]
        · have detailed :
              f.step { o with wantDetails := true } m = .ok { f with isAccepted := true } :=
            (Flight.step_confirms (o := { o with wantDetails := true }) confirms).trans
              (if_neg (by simp [modern]))
          rw [judge_of_step_ok detailed,
            judge_opened_iff (o := { o with wantDetails := true }) rfl modern rfl]
          have same : Spoiled { o with wantDetails := true } ms stop = Spoiled o ms stop := rfl
          simp [Reply.isAccepted, same, modern, confirms, confirms.1]
      · by_cases hello : m.IsHello
        · obtain ⟨r, detailed, refused⟩ :=
            Flight.step_mismatch (o := { o with wantDetails := true }) (f := f) hello confirms
          obtain ⟨r', plain, refused'⟩ :=
            Flight.step_mismatch (o := { o with wantDetails := false }) (f := f) hello confirms
          rw [judge_of_step_error detailed, judge_of_step_error plain, refused, refused']
          simp
        · obtain ⟨g, step, -⟩ := f.step_passes hello done
          rw [judge_of_step_ok (step _), judge_of_step_ok (step _), ih]
          simp [done, hello, confirms]

/-- Reading a flight for its details accepts what is accepted without them, but for flights that
are spoiled after the ServerHello that accepted the offer. -/
theorem details_accepted_iff (o : Offer) (ending : StreamEnd) (s : Bytes) :
    (∃ details, attempt { o with wantDetails := true } (.ok (s, ending)) =
        .ok (.accepted details)) ↔
      (∃ details, attempt { o with wantDetails := false } (.ok (s, ending)) =
          .ok (.accepted details)) ∧
        ¬ (o.version ≠ .tls13 ∧
          SpoiledOnceOpened o (arrivals .empty s).1 (arrivals .empty s).2) := by
  rw [attempt_accepted_iff, attempt_accepted_iff]
  exact judge_details_iff

def helloRecord (version suite : UInt16) : Bytes :=
  let body := Wire.bigEndian 2 version.toNat ++ List.replicate 32 0 ++ Wire.field 1 [] ++
    Wire.bigEndian 2 suite.toNat ++ [0]
  [0x16, 3, 3] ++ Wire.field 2 (2 :: Wire.field 3 body)

theorem details_change_verdict :
    let flight := helloRecord 0x0303 0xc02f ++ [0x14, 3, 3, 0, 1, 1]
    attempt ⟨.tls12, 0xc02f, false⟩ (.ok (flight, .closed)) = .ok (.accepted .none) ∧
      attempt ⟨.tls12, 0xc02f, true⟩ (.ok (flight, .closed)) = .ok .notTls := by
  intro flight
  have plain : exchange ⟨.tls12, 0xc02f, false⟩ .closed .start .empty flight = .accepted .none := by
    decide +kernel
  have detailed : exchange ⟨.tls12, 0xc02f, true⟩ .closed .start .empty flight = .notTls := by
    decide +kernel
  exact ⟨congrArg Except.ok plain, congrArg Except.ok detailed⟩

end FleetPosture.Tls

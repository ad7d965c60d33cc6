import FleetPosture.Proofs.Fleet.ForwardSpec
import FleetPosture.Proofs.Fleet.Machine

/-! How often each forward has been opened, kept, taken and cancelled. From one local port one forward
is open at most, if ssh refuses those from ports that are held; and a scan keeps what it has opened and
cancels what it has taken, in this order, whatever others do between. -/

namespace FleetPosture.Fleet.Source

open Remote (Launch SshSession)

section Events

def isAbout (operation : String) (f : Forward) (arguments : List String) : Bool :=
  arguments.take 4 == ["-O", operation, "-L", f.spec]

def opens (f : Forward) : Call Answer → Bool
  | ⟨.gateway (.launch arguments), run⟩ => isAbout "forward" f arguments && run.isSuccess
  | _ => false

def keeps (f : Forward) : Call Answer → Bool
  | ⟨.gateway (.keep kept), _⟩ => kept == f
  | _ => false

def takes (f : Forward) : Call Answer → Bool
  | ⟨.gateway (.take _), found⟩ => found == some f
  | _ => false

def cancels (f : Forward) : Call Answer → Bool
  | ⟨.gateway (.launch arguments), _⟩ => isAbout "cancel" f arguments
  | _ => false

def liveAfter (live : List Forward) : Call Answer → List Forward
  | ⟨.gateway (.keep f), _⟩ => f :: live
  | ⟨.gateway (.take _), some f⟩ => live.erase f
  | _ => live

def live (calls : List (Call Answer)) : List Forward := calls.foldl liveAfter []

/-- The forward was opened, and ssh has not been asked to close it since. -/
def Holds (f : Forward) (calls : List (Call Answer)) : Prop :=
  ∃ front c back, calls = front ++ c :: back ∧ opens f c = true ∧ ∀ d ∈ back, cancels f d = false

/-- ssh opens no forward from a local port that another holds. -/
def RefusesHeld (outside : World Answer) : Prop :=
  ∀ before arguments f held, Holds held before → held.localPort = f.localPort →
    opens f ⟨.gateway (.launch arguments), outside before (.gateway (.launch arguments))⟩ = false

variable {operation operation' : String} {f f' : Forward} {arguments rest : List String}
  {front calls : List (Call Answer)} {c : Call Answer}

theorem live_concat : live (front ++ [c]) = liveAfter (live front) c := List.foldl_concat ..

theorem isAbout_iff : isAbout operation f arguments = true ↔
    arguments.take 4 = ["-O", operation, "-L", f.spec] := beq_iff_eq

theorem isAbout_unique (h : isAbout operation f arguments = true)
    (h' : isAbout operation' f' arguments = true) : operation = operation' ∧ f = f' := by
  have same := (isAbout_iff.1 h).symm.trans (isAbout_iff.1 h')
  have texts : operation = operation' ∧ f.spec = f'.spec := by simpa using same
  exact ⟨texts.1, spec_injective texts.2⟩

theorem isAbout_cons :
    isAbout operation f ("-O" :: operation' :: "-L" :: f'.spec :: rest) = true ↔
      operation' = operation ∧ f' = f := by
  have own : isAbout operation' f' ("-O" :: operation' :: "-L" :: f'.spec :: rest) = true :=
    isAbout_iff.2 rfl
  refine ⟨isAbout_unique own, ?_⟩
  rintro ⟨rfl, rfl⟩
  exact own

theorem opens_launch {run : Launch} : opens f ⟨.gateway (.launch arguments), run⟩ = true ↔
    isAbout "forward" f arguments = true ∧ run.isSuccess = true := Bool.and_eq_true_iff

theorem opens_unique (h : opens f c = true) (h' : opens f' c = true) : f = f' := by
  unfold opens at h h'
  split at h
  · exact (isAbout_unique (opens_launch.1 h).1 (opens_launch.1 h').1).2
  · exact absurd h Bool.false_ne_true

end Events

section Openings

variable {f : Forward} {front : List (Call Answer)} {c : Call Answer}

def IsOpen (f : Forward) (calls : List (Call Answer)) : Prop :=
  calls.countP (cancels f) < calls.countP (opens f)

/-- From each local port one forward is open at most, and not twice; it holds the port. -/
structure Openings (calls : List (Call Answer)) : Prop where
  once : ∀ f, calls.countP (opens f) ≤ calls.countP (cancels f) + 1
  alone : ∀ f f', f.localPort = f'.localPort → IsOpen f calls → IsOpen f' calls → f = f'
  holds : ∀ f, IsOpen f calls → Holds f calls

theorem Openings.nil : Openings [] where
  once _ := Nat.zero_le _
  alone _ _ _ h := absurd h (Nat.lt_irrefl 0)
  holds _ h := absurd h (Nat.lt_irrefl 0)

theorem Holds.concat (h : Holds f front) (kept : cancels f c = false) : Holds f (front ++ [c]) := by
  obtain ⟨before, opening, after, rfl, opened, since⟩ := h
  refine ⟨before, opening, after ++ [c], by rw [List.append_assoc, List.cons_append], opened, ?_⟩
  exact List.forall_mem_append.2 ⟨since, List.forall_mem_singleton.2 kept⟩

theorem Openings.opens_or_isOpen (h : Openings front) (isOpen : IsOpen f (front ++ [c])) :
    opens f c = true ∨ IsOpen f front ∧ cancels f c = false := by
  cases opened : opens f c with
  | true => exact .inl rfl
  | false =>
    have once := h.once f
    rw [IsOpen, List.countP_append, List.countP_append, List.countP_singleton, List.countP_singleton,
      opened, if_neg Bool.false_ne_true] at isOpen
    cases cancelled : cancels f c with
    | true =>
      rw [cancelled, if_pos rfl] at isOpen
      omega
    | false =>
      rw [cancelled, if_neg Bool.false_ne_true] at isOpen
      exact .inr ⟨isOpen, rfl⟩

theorem Openings.concat (h : Openings front)
    (fresh : ∀ f, opens f c = true → ∀ held, held.localPort = f.localPort → ¬ IsOpen held front) :
    Openings (front ++ [c]) where
  once f := by
    rw [List.countP_append, List.countP_append, List.countP_singleton, List.countP_singleton]
    cases opened : opens f c with
    | true =>
      have closed : front.countP (opens f) ≤ front.countP (cancels f) :=
        Nat.le_of_not_lt (fresh f opened f rfl)
      rw [if_pos rfl]
      omega
    | false =>
      have once := h.once f
      rw [if_neg Bool.false_ne_true]
      omega
  alone f f' same isOpen isOpen' := by
    rcases h.opens_or_isOpen isOpen with opened | ⟨earlier, -⟩ <;>
      rcases h.opens_or_isOpen isOpen' with opened' | ⟨earlier', -⟩
    · exact opens_unique opened opened'
    · exact absurd earlier' (fresh f opened f' same.symm)
    · exact absurd earlier (fresh f' opened' f same)
    · exact h.alone f f' same earlier earlier'
  holds f isOpen := by
    rcases h.opens_or_isOpen isOpen with opened | ⟨earlier, kept⟩
    · exact ⟨front, c, [], rfl, opened, List.forall_mem_nil _⟩
    · exact (h.holds f earlier).concat kept

end Openings

section Counted

variable {f : Forward} {calls front : List (Call Answer)} {c : Call Answer}

def Counted (calls : List (Call Answer)) : Prop :=
  ∀ f, (live calls).count f + calls.countP (takes f) = calls.countP (keeps f)

theorem count_liveAfter (l : List Forward) (found : ∀ f, takes f c = true → f ∈ l) :
    (liveAfter l c).count f + [c].countP (takes f) = l.count f + [c].countP (keeps f) := by
  rw [List.countP_singleton, List.countP_singleton]
  match c, found with
  | ⟨.gateway (.keep kept), _⟩, _ => simp [liveAfter, keeps, takes, List.count_cons]
  | ⟨.gateway (.take _), some taken⟩, found =>
    have there : taken ∈ l := found taken (beq_iff_eq.2 rfl)
    by_cases same : taken = f
    · subst same
      have positive : 0 < l.count taken := List.count_pos_iff.2 there
      simp only [liveAfter, keeps, takes, List.count_erase_self, BEq.rfl, if_true,
        Bool.false_eq_true, if_false]
      omega
    · simp [liveAfter, keeps, takes, List.count_erase_of_ne (Ne.symm same), same]
  | ⟨.gateway (.take _), none⟩, _ => rfl
  | ⟨.gateway (.launch _), _⟩, _ | ⟨.gateway .reservePort, _⟩, _ | ⟨.gateway .control, _⟩, _
  | ⟨.gateway (.establish _), _⟩, _ | ⟨.gateway .takeControl, _⟩, _ | ⟨.fetch _, _⟩, _
  | ⟨.resolve _, _⟩, _ | ⟨.scanKeys _, _⟩, _ | ⟨.probe _, _⟩, _ => rfl

theorem Counted.concat (h : Counted front) (found : ∀ f, takes f c = true → f ∈ live front) :
    Counted (front ++ [c]) := by
  intro f
  have earlier := h f
  have last := count_liveAfter (f := f) (live front) found
  rw [live_concat, List.countP_append, List.countP_append]
  omega

end Counted

section Discipline

variable {f : Forward} {calls front : List (Call Answer)} {c : Call Answer}

def LeavesConnection (r : Request) : Prop :=
  r ≠ .gateway .takeControl ∧ ∀ socket, r ≠ .gateway (.establish socket)

/-- A forward is opened before it is kept and taken before it is cancelled. -/
structure Disciplined (calls : List (Call Answer)) : Prop where
  kept : ∀ f, Precedes (opens f) (keeps f) calls
  cancelled : ∀ f, Precedes (takes f) (cancels f) calls
  connected : ∀ c ∈ calls, LeavesConnection c.request

structure Free (c : Call Answer) : Prop where
  keeps_eq : ∀ f, keeps f c = false
  cancels_eq : ∀ f, cancels f c = false
  connected : LeavesConnection c.request

namespace Disciplined

theorem of_prefix (h : Disciplined calls) (sofar : front <+: calls) : Disciplined front where
  kept f before within := h.kept f before (within.trans sofar)
  cancelled f before within := h.cancelled f before (within.trans sofar)
  connected c hc := h.connected c (sofar.subset hc)

theorem kept_le (h : Disciplined calls) (f : Forward) :
    calls.countP (keeps f) ≤ calls.countP (opens f) := h.kept f calls List.prefix_rfl

theorem cancelled_le (h : Disciplined calls) (f : Forward) :
    calls.countP (cancels f) ≤ calls.countP (takes f) := h.cancelled f calls List.prefix_rfl

theorem flatMap {α : Type} {part : α → List (Call Answer)} {xs : List α}
    (each : ∀ x ∈ xs, Disciplined (part x)) : Disciplined (xs.flatMap part) where
  kept f := .flatMap fun x hx => (each x hx).kept f
  cancelled f := .flatMap fun x hx => (each x hx).cancelled f
  connected c hc := by
    obtain ⟨x, hx, hc⟩ := List.mem_flatMap.1 hc
    exact (each x hx).connected c hc

theorem interleaves {lists : List (List (Call Answer))} (h : Interleaves lists calls)
    (each : ∀ l ∈ lists, Disciplined l) : Disciplined calls where
  kept f := .interleaves h fun l hl => (each l hl).kept f
  cancelled f := .interleaves h fun l hl => (each l hl).cancelled f
  connected c hc := by
    obtain ⟨l, hl, hc⟩ := List.mem_flatten.1 (h.perm.subset hc)
    exact (each l hl).connected c hc

theorem of_free (free : ∀ c ∈ calls, Free c) : Disciplined calls where
  kept f := .of_forall_not fun c hc => (free c hc).keeps_eq f
  cancelled f := .of_forall_not fun c hc => (free c hc).cancels_eq f
  connected c hc := (free c hc).connected

theorem concat (free : ∀ d ∈ calls, Free d)
    (kept : ∀ f, keeps f c = true → ∃ d ∈ calls, opens f d = true)
    (cancelled : ∀ f, cancels f c = true → ∃ d ∈ calls, takes f d = true)
    (connected : LeavesConnection c.request) : Disciplined (calls ++ [c]) where
  kept f := .concat (fun d hd => (free d hd).keeps_eq f) (kept f)
  cancelled f := .concat (fun d hd => (free d hd).cancels_eq f) (cancelled f)
  connected := List.forall_mem_append.2
    ⟨fun d hd => (free d hd).connected, List.forall_mem_singleton.2 connected⟩

end Disciplined

namespace Free

theorem of_isIdle (idle : c.request.isIdle = true) : Free c where
  keeps_eq f := by
    unfold keeps
    split
    · exact nomatch idle
    · rfl
  cancels_eq f := by
    unfold cancels
    split
    · next arguments run =>
      refine Bool.eq_false_iff.2 fun about => bne_iff_ne.1 idle ?_
      have first := congrArg List.head? (isAbout_iff.1 about)
      rwa [List.head?_take, if_neg (by decide)] at first
    · rfl
  connected := by
    refine ⟨fun same => ?_, fun socket same => ?_⟩ <;> rw [same] at idle <;> exact nomatch idle

theorem control {socket : Option String} : Free ⟨.gateway .control, socket⟩ := .of_isIdle rfl

theorem reserve {answer : Except Failure UInt16} : Free ⟨.gateway .reservePort, answer⟩ :=
  .of_isIdle rfl

theorem forward {connection : List String} {run : Launch} :
    Free ⟨.gateway (.launch ("-O" :: "forward" :: "-L" :: f.spec :: connection)), run⟩ where
  keeps_eq _ := rfl
  cancels_eq _ := Bool.eq_false_iff.2 fun about =>
    absurd (isAbout_cons.1 about).1 (by decide)
  connected := ⟨nofun, nofun⟩

theorem take {localPort : UInt16} {found : Option Forward} :
    Free ⟨.gateway (.take localPort), found⟩ :=
  ⟨fun _ => rfl, fun _ => rfl, nofun, nofun⟩

end Free

theorem Serves.disciplined {g : Gateway} {control : Option String}
    {c : Call (Fleet.Answer (S := SshSession))} (h : Serves g control c calls) :
    Disciplined calls := by
  cases h with
  | unconnected => exact .of_free (by simp [Free.control])
  | unreserved => exact .of_free (by simp [Free.control, Free.reserve])
  | refused => exact .of_free (by simp [Free.control, Free.reserve, Free.forward])
  | @opened f run socket up succeeded =>
    show Disciplined ([_, _, _] ++ [_])
    refine .concat (by simp [Free.control, Free.reserve, Free.forward]) ?_ nofun ⟨nofun, nofun⟩
    intro f' kept
    obtain rfl : f = f' := beq_iff_eq.1 kept
    refine ⟨_, List.mem_cons_of_mem _ (List.mem_cons_of_mem _ List.mem_cons_self), ?_⟩
    exact opens_launch.2 ⟨isAbout_cons.2 ⟨rfl, rfl⟩, succeeded⟩
  | ignored => exact .of_free (by simp [Free.control, Free.take])
  | @released e f run socket up =>
    show Disciplined ([_, _] ++ [_])
    refine .concat (by simp [Free.control, Free.take]) nofun ?_ ⟨nofun, nofun⟩
    intro f' cancelled
    obtain ⟨-, rfl⟩ := isAbout_cons.1 cancelled
    exact ⟨_, List.mem_cons_self, beq_iff_eq.2 rfl⟩
  | other unrelated idle => exact .of_free fun c hc => .of_isIdle (idle c hc)

theorem Dropped.free (h : Dropped calls) : ∀ c ∈ calls, Free c := by
  obtain ⟨localPort, f, rfl⟩ := h
  simp [Free.control, Free.take]

end Discipline

end FleetPosture.Fleet.Source

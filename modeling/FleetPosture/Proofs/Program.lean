import FleetPosture.Program
import FleetPosture.Proofs.Interleaving
import Mathlib.Data.List.Forall2
import Mathlib.Data.List.InsertIdx

/-! A program seen from outside makes calls and ends with a value. Whatever answers it, its calls
are those of one of its runs, and the calls of programs that are run side by side are an interleaving
of one run of each. -/

namespace FleetPosture

variable {R : Type} {A : R → Type} {α β γ : Type}

section Lists

theorem exists_append_of_getElem? {xs : List β} {i : Nat} {x : β} (h : xs[i]? = some x) :
    ∃ front back, xs = front ++ x :: back ∧ xs.eraseIdx i = front ++ back ∧
      ∀ y, xs.set i y = front ++ y :: back := by
  obtain ⟨hi, rfl⟩ := List.getElem?_eq_some_iff.1 h
  refine ⟨xs.take i, xs.drop (i + 1), ?_, List.eraseIdx_eq_take_drop_succ xs i, fun y => ?_⟩
  · rw [List.getElem_cons_drop, List.take_append_drop]
  · rw [List.set_eq_take_append_cons_drop, if_pos hi]

variable {P : β → γ → Prop}

theorem exists_append_of_forall₂ {front back : List β} {zs : List γ}
    (h : List.Forall₂ P (front ++ back) zs) :
    ∃ front' back', zs = front' ++ back' ∧ List.Forall₂ P front front' ∧
      List.Forall₂ P back back' := by
  induction front generalizing zs with
  | nil => exact ⟨[], zs, rfl, .nil, h⟩
  | cons x front ih =>
    obtain ⟨z, zs, hz, hzs, rfl⟩ := List.forall₂_cons_left_iff.1 h
    obtain ⟨front', back', rfl, first, last⟩ := ih hzs
    exact ⟨z :: front', back', rfl, .cons hz first, last⟩

theorem exists_of_forall₂_right {xs : List β} {ys : List γ} (h : List.Forall₂ P xs ys) {y : γ}
    (hy : y ∈ ys) : ∃ x ∈ xs, P x y := by
  induction h with
  | nil => exact absurd hy List.not_mem_nil
  | cons head _ ih =>
    rcases List.mem_cons.1 hy with rfl | hy
    · exact ⟨_, List.mem_cons_self, head⟩
    · obtain ⟨x, hx, p⟩ := ih hy
      exact ⟨x, List.mem_cons_of_mem _ hx, p⟩

end Lists

structure Call (A : R → Type) where
  request : R
  answer : A request

/-- Whatever answers requests. It may go by all calls before. -/
abbrev World (A : R → Type) := List (Call A) → (r : R) → A r

def World.answer (w : World A) (r : R) : StateM (List (Call A)) (A r) :=
  fun before => (w before r, before ++ [⟨r, w before r⟩])

theorem World.run_answer (w : World A) (r : R) (before : List (Call A)) :
    (w.answer r).run before = (w before r, before ++ [⟨r, w before r⟩]) := rfl

namespace Program

theorem bind_pure (p : Program A α) : p.bind pure = p := by
  induction p with
  | done a => rfl
  | ask r next ih => exact congrArg (ask r) (funext ih)

theorem bind_assoc (p : Program A α) (f : α → Program A β) (g : β → Program A γ) :
    (p.bind f).bind g = p.bind fun a => (f a).bind g := by
  induction p with
  | done a => rfl
  | ask r next ih => exact congrArg (ask r) (funext ih)

instance : LawfulMonad (Program A) := .mk' _ bind_pure (fun _ _ => rfl) bind_assoc

/-- The program makes the calls one after the other and ends with the value. -/
inductive Makes : Program A α → List (Call A) → α → Prop
  | done (a : α) : Makes (done a) [] a
  | ask {r : R} {next : A r → Program A α} {calls : List (Call A)} {a : α} (answer : A r)
      (rest : Makes (next answer) calls a) : Makes (ask r next) (⟨r, answer⟩ :: calls) a

theorem makes_pure_iff {a b : α} {calls : List (Call A)} :
    Makes (pure a) calls b ↔ calls = [] ∧ b = a := by
  constructor
  · rintro ⟨⟩
    exact ⟨rfl, rfl⟩
  · rintro ⟨rfl, rfl⟩
    exact .done b

theorem makes_bind_iff {p : Program A α} {f : α → Program A β} {calls : List (Call A)} {b : β} :
    Makes (p >>= f) calls b ↔
      ∃ first a rest, calls = first ++ rest ∧ Makes p first a ∧ Makes (f a) rest b := by
  constructor
  · intro h
    induction p generalizing calls with
    | done a => exact ⟨[], a, calls, rfl, .done a, h⟩
    | ask r next ih =>
      cases h with
      | ask answer h =>
        obtain ⟨first, a, rest, rfl, made, goesOn⟩ := ih answer h
        exact ⟨_, a, rest, rfl, .ask answer made, goesOn⟩
  · rintro ⟨first, a, rest, rfl, made, goesOn⟩
    induction made with
    | done a => exact goesOn
    | ask answer _ ih => exact .ask answer (ih goesOn)

theorem makes_map_iff {p : Program A α} {f : α → β} {calls : List (Call A)} {b : β} :
    Makes (f <$> p) calls b ↔ ∃ a, b = f a ∧ Makes p calls a := by
  rw [map_eq_pure_bind, makes_bind_iff]
  constructor
  · rintro ⟨first, a, rest, rfl, made, goesOn⟩
    obtain ⟨rfl, rfl⟩ := makes_pure_iff.1 goesOn
    exact ⟨a, rfl, (List.append_nil first).symm ▸ made⟩
  · rintro ⟨a, rfl, made⟩
    exact ⟨calls, a, [], (List.append_nil calls).symm, made, .done _⟩

theorem makes_request_iff {r : R} {calls : List (Call A)} {answer : A r} :
    Makes (request r) calls answer ↔ calls = [⟨r, answer⟩] := by
  constructor
  · rintro ⟨⟩
    next rest => cases rest; rfl
  · rintro rfl
    exact .ask answer (.done answer)

theorem Makes.value_eq {p : Program A α} {calls : List (Call A)} {a b : α} (ha : Makes p calls a)
    (hb : Makes p calls b) : a = b := by
  induction ha with
  | done a =>
    cases hb
    rfl
  | ask answer _ ih =>
    cases hb with
    | ask _ rest => exact ih rest

theorem makes_run {R' : Type} {B : R' → Type} {handle : (r : R) → Program B (A r)}
    {p : Program A α} {calls : List (Call B)} {a : α} (h : Makes (p.run handle) calls a) :
    ∃ inner parts, Makes p inner a ∧ calls = List.flatten parts ∧
      List.Forall₂ (fun c part => Makes (handle c.request) part c.answer) inner parts := by
  induction p generalizing calls with
  | done b =>
    obtain ⟨rfl, rfl⟩ := makes_pure_iff.1 h
    exact ⟨[], [], .done a, rfl, .nil⟩
  | ask r next ih =>
    obtain ⟨first, answer, rest, rfl, made, goesOn⟩ := makes_bind_iff.1 h
    obtain ⟨inner, parts, run, rfl, each⟩ := ih answer goesOn
    exact ⟨⟨r, answer⟩ :: inner, first :: parts, .ask answer run, rfl, .cons made each⟩

section Transformers

variable {ε σ : Type} {calls : List (Call A)}

theorem makes_exceptT_bind {x : ExceptT ε (Program A) α} {f : α → ExceptT ε (Program A) β}
    {result : Except ε β} (h : Makes (x >>= f).run calls result) :
    (∃ e, result = .error e ∧ Makes x.run calls (.error e)) ∨
      ∃ first a rest, calls = first ++ rest ∧ Makes x.run first (.ok a) ∧
        Makes (f a).run rest result := by
  rw [ExceptT.run_bind] at h
  obtain ⟨first, a | a, rest, rfl, made, goesOn⟩ := makes_bind_iff.1 h
  · obtain ⟨rfl, rfl⟩ := makes_pure_iff.1 goesOn
    exact .inl ⟨a, rfl, (List.append_nil first).symm ▸ made⟩
  · exact .inr ⟨first, a, rest, rfl, made, goesOn⟩

theorem makes_exceptT_bind_ok {x : ExceptT ε (Program A) α} {f : α → ExceptT ε (Program A) β}
    {first rest : List (Call A)} {a : α} {result : Except ε β} (made : Makes x.run first (.ok a))
    (goesOn : Makes (f a).run rest result) : Makes (x >>= f).run (first ++ rest) result := by
  rw [ExceptT.run_bind]
  exact makes_bind_iff.2 ⟨first, .ok a, rest, rfl, made, goesOn⟩

theorem makes_stateT_bind {x : StateT σ (Program A) α} {f : α → StateT σ (Program A) β} {s : σ}
    {result : β × σ} (h : Makes ((x >>= f).run s) calls result) :
    ∃ first a s' rest, calls = first ++ rest ∧ Makes (x.run s) first (a, s') ∧
      Makes ((f a).run s') rest result := by
  rw [StateT.run_bind] at h
  obtain ⟨first, ⟨a, s'⟩, rest, rfl, made, goesOn⟩ := makes_bind_iff.1 h
  exact ⟨first, a, s', rest, rfl, made, goesOn⟩

end Transformers

theorem stateM_bind {σ : Type} (x : StateM σ α) (f : α → StateM σ β) (s : σ) :
    (x >>= f).run s = (f (x.run s).1).run (x.run s).2 := rfl

theorem stateM_map {σ : Type} (f : α → β) (x : StateM σ α) (s : σ) :
    (f <$> x).run s = (f (x.run s).1, (x.run s).2) := rfl

section Handler

variable {σ : Type} (handle : (r : R) → StateM σ (A r))

inductive Answers : σ → List (Call A) → σ → Prop
  | nil (s : σ) : Answers s [] s
  | cons {s s' : σ} {r : R} {calls : List (Call A)}
      (rest : Answers ((handle r).run s).2 calls s') :
      Answers s (⟨r, ((handle r).run s).1⟩ :: calls) s'

variable {handle}

theorem Answers.append {s s' s'' : σ} {calls calls' : List (Call A)}
    (first : Answers handle s calls s') (others : Answers handle s' calls' s'') :
    Answers handle s (calls ++ calls') s'' := by
  induction first with
  | nil => exact others
  | cons _ ih => exact .cons (ih others)

theorem Answers.exists_of_append {s s' : σ} {front back : List (Call A)}
    (h : Answers handle s (front ++ back) s') :
    ∃ s₁, Answers handle s front s₁ ∧ Answers handle s₁ back s' := by
  induction front generalizing s with
  | nil => exact ⟨s, .nil s, h⟩
  | cons c front ih =>
    cases h with
    | cons rest =>
      obtain ⟨s₁, first, others⟩ := ih rest
      exact ⟨s₁, .cons first, others⟩

variable (handle)

theorem exists_answers_run (p : Program A α) (s : σ) :
    ∃ calls a s', (p.run handle).run s = (a, s') ∧ Answers handle s calls s' ∧ Makes p calls a := by
  induction p generalizing s with
  | done a => exact ⟨[], a, s, rfl, .nil s, .done a⟩
  | ask r next ih =>
    obtain ⟨calls, a, s', run, answered, made⟩ := ih ((handle r).run s).1 ((handle r).run s).2
    exact ⟨_ :: calls, a, s', run, .cons answered, .ask _ made⟩

theorem exists_answers_interleave (schedule : List Nat) (programs : List (Program A α)) (s : σ) :
    ∃ (runs : List (List (Call A) × α)) (values : List α) (calls : List (Call A)) (s' : σ),
      (interleave handle schedule programs).run s = (values, s') ∧ Answers handle s calls s' ∧
      List.Forall₂ (fun p r => Makes p r.1 r.2) programs runs ∧
      Interleaves (runs.map (·.1)) calls ∧ values.Perm (runs.map (·.2)) := by
  induction schedule generalizing programs s with
  | nil =>
    -- the schedule is over: what is left runs in the order of the list
    rw [interleave]
    induction programs generalizing s with
    | nil => exact ⟨[], [], [], s, rfl, .nil s, .nil, .nil, .nil⟩
    | cons p programs ih =>
      obtain ⟨first, a, s₁, run, answered, made⟩ := exists_answers_run handle p s
      obtain ⟨runs, values, calls, s', rest, answered', each, interleaved, ends⟩ := ih s₁
      refine ⟨(first, a) :: runs, a :: values, first ++ calls, s', ?_, answered.append answered',
        .cons made each, .cons interleaved (.append first calls), ends.cons a⟩
      rw [List.mapM_cons, stateM_bind, run, stateM_bind, rest]
      rfl
  | cons i schedule ih =>
    rw [interleave]
    -- the turn is nobody's, or of a program that has ended, or of one that asks for something
    split
    · exact ih programs s
    · next a moves =>
      obtain ⟨front, back, rfl, others, -⟩ := exists_append_of_getElem? moves
      obtain ⟨runs, values, calls, s', run, answered, each, interleaved, ends⟩ := ih (front ++ back) s
      obtain ⟨front', back', rfl, each₁, each₂⟩ := exists_append_of_forall₂ each
      rw [List.map_append] at interleaved ends
      refine ⟨front' ++ ([], a) :: back', a :: values, calls, s', ?_, answered,
        List.rel_append each₁ (.cons (.done a) each₂), ?_, ?_⟩
      · rw [others, stateM_bind, run]
        rfl
      · rw [List.map_append, List.map_cons]
        exact interleaved.insert_nil
      · rw [List.map_append, List.map_cons]
        exact (ends.cons a).trans List.perm_middle.symm
    · next r next moves =>
      obtain ⟨front, back, rfl, -, moved⟩ := exists_append_of_getElem? moves
      let answer : A r := ((handle r).run s).1
      obtain ⟨runs, values, calls, s', run, answered, each, interleaved, ends⟩ :=
        ih (front ++ next answer :: back) ((handle r).run s).2
      obtain ⟨front', back', rfl, each₁, each₂⟩ := exists_append_of_forall₂ each
      obtain _ | @⟨_, ⟨first, a⟩, _, back', made, each₂⟩ := each₂
      rw [List.map_append, List.map_cons] at interleaved ends
      refine ⟨front' ++ (⟨r, answer⟩ :: first, a) :: back', values, ⟨r, answer⟩ :: calls, s', ?_,
        .cons answered, List.rel_append each₁ (.cons (.ask _ made) each₂), ?_, ?_⟩
      · rw [stateM_bind, moved]
        exact run
      · rw [List.map_append, List.map_cons]
        exact interleaved.step
      · rw [List.map_append, List.map_cons]
        exact ends

end Handler

section World

variable {w : World A} {before after : List (Call A)}

theorem Answers.eq_append {calls : List (Call A)} (h : Answers w.answer before calls after) :
    after = before ++ calls := by
  induction h with
  | nil => exact (List.append_nil _).symm
  | cons _ ih => exact ih.trans (List.append_assoc _ [_] _)

theorem exists_makes_run (w : World A) (p : Program A α) (before : List (Call A)) :
    ∃ calls a, (p.run w.answer).run before = (a, before ++ calls) ∧ Makes p calls a := by
  obtain ⟨calls, a, after, run, answered, made⟩ := exists_answers_run w.answer p before
  exact ⟨calls, a, answered.eq_append ▸ run, made⟩

end World

section Map

variable {m : Type → Type} [Monad m] [LawfulMonad m] (handle : (r : R) → m (A r)) (f : α → β)

theorem run_map (p : Program A α) : (f <$> p).run handle = f <$> p.run handle := by
  induction p with
  | done a => exact (map_pure f a).symm
  | ask r next ih =>
    show (handle r >>= fun answer => (f <$> next answer).run handle) = _
    simp only [ih, run, map_bind]

theorem interleave_map (schedule : List Nat) (programs : List (Program A α)) :
    interleave handle schedule (programs.map (f <$> ·)) =
      List.map f <$> interleave handle schedule programs := by
  induction schedule generalizing programs with
  | nil =>
    rw [interleave, interleave]
    induction programs with
    | nil => simp
    | cons p programs ih => simp [List.mapM_cons, run_map, ih]
  | cons i schedule ih =>
    rw [interleave, interleave, List.getElem?_map]
    cases moves : programs[i]? with
    | none => exact ih programs
    | some p =>
      cases p with
      | done a =>
        show (interleave handle schedule ((programs.map (f <$> ·)).eraseIdx i) >>= fun values =>
          Pure.pure (f a :: values)) = _
        rw [List.eraseIdx_map, ih]
        simp
      | ask r next =>
        have moved (answer : A r) : (programs.map (f <$> ·)).set i (f <$> next answer) =
            (programs.set i (next answer)).map (f <$> ·) := List.map_set.symm
        show (handle r >>= fun answer =>
          interleave handle schedule ((programs.map (f <$> ·)).set i (f <$> next answer))) = _
        simp only [moved, ih, map_bind]

end Map

end Program

end FleetPosture

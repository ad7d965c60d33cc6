import FleetPosture.Proofs.Json.Line
import FleetPosture.Proofs.Snapshot.Encoded
import FleetPosture.Proofs.Store.Latest
import FleetPosture.Proofs.Text.Pieces
import FleetPosture.Store.Save

/-! A database that is saved to and opened again, in any order, is a log: its rows and its file tell
which snapshots were saved in it and nothing else, and they only ever grow. -/

namespace FleetPosture.Store

open Tables

section File

variable {saved : List Snapshot}

def written (saved : List Snapshot) : String := String.join (saved.filterMap logLine?)

def replay? (saved : List Snapshot) : Option Tables :=
  saved.foldlM (fun t s => (save t s).toOption.map (·.2)) .empty

theorem exists_line {s : Snapshot} (dated : s.IsDated) :
    ∃ out, s.encode? = some out ∧ Snapshot.decode? out = some s ∧
      '\n' ∉ out.toList ∧ '\r' ∉ out.toList := by
  obtain ⟨v, out, plain, rfl, encoded, decoded⟩ := Snapshot.exists_encode? dated
  have printable : Json.Printable v.compact.toList := by
    rw [Json.compact, String.toList_ofList]
    exact plain.printable
  exact ⟨v.compact, encoded, decoded, printable.not_mem (by decide), printable.not_mem (by decide)⟩

theorem saveLine?_toList {out : String} {s : Snapshot} (decoded : Snapshot.decode? out = some s)
    (t : Tables) : saveLine? t out.toList = (save t s).toOption.map (·.2) := by
  rw [saveLine?, String.ofList_toList, decoded]
  show ((save t s).toOption >>= fun p => some p.2) = _
  cases save t s <;> rfl

theorem ofLog?_written (dated : ∀ s ∈ saved, s.IsDated) :
    ofLog? (written saved) = replay? saved := by
  -- the lines before have given some tables or other
  suffices lines : ∀ t, (Text.lines (written saved).toList).foldlM saveLine? t =
      saved.foldlM (fun t s => (save t s).toOption.map (·.2)) t from lines .empty
  induction saved with
  | nil => exact fun t => rfl
  | cons s rest ih =>
    obtain ⟨first, others⟩ := List.forall_mem_cons.1 dated
    obtain ⟨out, encoded, decoded, newline, carriage⟩ := exists_line first
    have text : (written (s :: rest)).toList = out.toList ++ '\n' :: (written rest).toList := by
      simp [written, logLine?, encoded, String.toList_join]
    intro t
    rw [text, Text.lines_append newline, Text.stripReturn_of_not_mem carriage, List.foldlM_cons,
      List.foldlM_cons, saveLine?_toList decoded]
    exact bind_congr (ih others)

theorem written_concat {s : Snapshot} {line : String} (h : logLine? s = some line) :
    written (saved ++ [s]) = written saved ++ line := by
  refine String.toList_inj.1 ?_
  simp [written, h, String.toList_join]

theorem replay?_concat {s : Snapshot} {t t' : Tables} {n : Int} (before : replay? saved = some t)
    (h : save t s = .ok (n, t')) : replay? (saved ++ [s]) = some t' := by
  rw [replay?] at before ⊢
  rw [List.foldlM_append, before]
  show ((save t s).toOption.map (·.2) >>= pure) = _
  rw [h]
  rfl

end File

section Rows

variable {t : Tables} {saved : List Snapshot} {s : Snapshot}

def KeysSuffice (saved : List Snapshot) : Prop :=
  ∀ k, (Cost.sum saved Cost.ofSnapshot k : Int) ≤ Cell.maxInteger

theorem Cost.sum_concat {β : Type} (xs : List β) (x : β) (cost : β → Cost) (k : Kind) :
    Cost.sum (xs ++ [x]) cost k = Cost.sum xs cost k + cost x k := by
  induction xs with
  | nil => exact Nat.add_comm _ _
  | cons y ys ih =>
    show cost y k + Cost.sum (ys ++ [x]) cost k = cost y k + Cost.sum ys cost k + cost x k
    rw [ih, Nat.add_assoc]

/-- A row for each of the snapshots holds it, and all rows together are those that they need. -/
structure HoldsAll (t : Tables) (saved : List Snapshot) : Prop where
  grounded : t.Grounded
  used : ∀ k, t.used k = Cost.sum saved Cost.ofSnapshot k
  keys : KeysSuffice saved
  rows : List.Forall₂ (HoldsSnapshot t) t.snapshots.rows saved

namespace HoldsAll

theorem empty : HoldsAll .empty [] where
  grounded := grounded_empty
  used k := by cases k <;> rfl
  keys k := by
    show (0 : Int) ≤ _
    decide
  rows := .nil

theorem fits_iff (h : HoldsAll t saved) :
    t.Fits (Cost.ofSnapshot s) ↔ KeysSuffice (saved ++ [s]) := by
  constructor
  · intro fits k
    rw [Cost.sum_concat, Int.natCast_add, ← h.used k]
    rcases Nat.eq_zero_or_pos (Cost.ofSnapshot s k) with none | some
    · rw [none, h.used k]
      exact (Int.add_zero _).symm ▸ h.keys k
    · exact fits k some
  · intro suffice k _
    rw [h.used k, ← Int.natCast_add, ← Cost.sum_concat]
    exact suffice k

theorem fresh_iff (h : HoldsAll t saved) :
    (∀ r ∈ t.snapshots.rows, r.id ≠ .text s.id.text) ↔ ∀ x ∈ saved, x.id ≠ s.id := by
  have ids : t.snapshots.rows.map (·.id) = saved.map fun x => .text x.id.text := by
    rw [← List.forall₂_eq_eq_eq, List.forall₂_map_left_iff, List.forall₂_map_right_iff]
    exact h.rows.imp fun _ _ holds => holds.id
  have same (x : Snapshot) : Cell.text x.id.text = .text s.id.text ↔ x.id = s.id := by
    refine ⟨fun e => ?_, fun e => by rw [e]⟩
    have read := Uuid.parse?_text x.id
    rw [Cell.text.inj e, Uuid.parse?_text] at read
    exact (Option.some.inj read).symm
  calc (∀ r ∈ t.snapshots.rows, r.id ≠ .text s.id.text)
      ↔ ∀ c ∈ t.snapshots.rows.map (·.id), c ≠ .text s.id.text := by rw [List.forall_mem_map]
    _ ↔ ∀ x ∈ saved, x.id ≠ s.id := by simp only [ids, List.forall_mem_map, ne_eq, same]

theorem loadSnapshot (h : HoldsAll t saved) :
    List.Forall₂ (fun row s => t.loadSnapshot row = .ok s.stored) t.snapshots.rows saved :=
  h.rows.imp fun _ _ => loadSnapshot_of_holds

theorem latest_eq (h : HoldsAll t saved) :
    latest t = saved.getLast?.elim (.error .noData) fun s => .ok s.stored := by
  have reversed := List.forall₂_reverse_iff.2 h.loadSnapshot
  rw [latest, ← List.head?_reverse, ← List.head?_reverse]
  generalize t.snapshots.rows.reverse = rows at reversed ⊢
  generalize saved.reverse = latestFirst at reversed ⊢
  cases reversed with
  | nil => rfl
  | cons loaded _ => exact loaded

theorem save_new (h : HoldsAll t saved) (dated : s.IsDated) (fresh : ∀ x ∈ saved, x.id ≠ s.id)
    (keys : KeysSuffice (saved ++ [s])) :
    ∃ n t', save t s = .ok (n, t') ∧ t.Grows t' ∧ HoldsAll t' (saved ++ [s]) := by
  obtain ⟨createdAt, text⟩ := dated.createdAt
  have meets := meets_newSnapshot h.grounded text dated.hosts
  obtain ⟨n, t', run, used, grounded, entered, -⟩ := meets.room (h.fits_iff.2 keys)
  refine ⟨n, t', (save_of_fresh text (h.fresh_iff.2 fresh)).trans run, entered.grows, grounded, ?_,
    keys, ?_⟩
  · intro k
    rw [used, h.used, Cost.sum_concat, Int.natCast_add]
  · obtain ⟨row, rows, holds⟩ := entered.last
    rw [rows]
    exact forall₂_concat (h.rows.imp entered.held) holds

theorem save_full (h : HoldsAll t saved) (dated : s.IsDated) (fresh : ∀ x ∈ saved, x.id ≠ s.id)
    (keys : ¬ KeysSuffice (saved ++ [s])) : save t s = .error .full := by
  obtain ⟨createdAt, text⟩ := dated.createdAt
  have meets := meets_newSnapshot h.grounded text dated.hosts
  rw [save_of_fresh text (h.fresh_iff.2 fresh)]
  exact meets.full fun fits => keys (h.fits_iff.1 fits)

theorem save_duplicate (h : HoldsAll t saved) (dated : s.IsDated) {x : Snapshot} (hx : x ∈ saved)
    (same : x.id = s.id) : save t s = .error .duplicateId := by
  obtain ⟨createdAt, text⟩ := dated.createdAt
  refine (snapshot_eq text t).trans (if_pos ?_)
  by_contra unused
  refine h.fresh_iff.1 (fun r hr heq => unused ?_) x hx same
  exact List.any_eq_true.2 ⟨r, hr, beq_iff_eq.2 heq⟩

end HoldsAll

end Rows

inductive Action
  | save (s : Snapshot)
  | reopen

structure Session where
  tables : Tables
  file : String
  saved : List Snapshot

namespace Session

def new : Session := ⟨.empty, "", []⟩

def act (d : Session) : Action → Except StoreError Unit × Session
  | .save s =>
    match append d.tables s with
    | .ok (t, line) => (.ok (), ⟨t, d.file ++ line, d.saved ++ [s]⟩)
    | .error e => (.error e, d)
  | .reopen =>
    match ofLog? d.file with
    | some t => (.ok (), { d with tables := t })
    | none => (.error .undecodable, d)

def after (actions : List Action) : Session := actions.foldl (fun d a => (d.act a).2) new

structure IsLog (d : Session) : Prop where
  dated : ∀ s ∈ d.saved, s.IsDated
  file : d.file = written d.saved
  replayed : replay? d.saved = some d.tables
  holds : HoldsAll d.tables d.saved

theorem isLog_new : new.IsLog where
  dated := List.forall_mem_nil _
  file := rfl
  replayed := rfl
  holds := .empty

namespace IsLog

variable {d : Session} {s : Snapshot}

theorem act_reopen (h : d.IsLog) : d.act .reopen = (.ok (), d) := by
  have opened : ofLog? d.file = some d.tables := by
    rw [h.file, ofLog?_written h.dated, h.replayed]
  rw [act, opened]

theorem act_save_new (h : d.IsLog) (dated : s.IsDated) (fresh : ∀ x ∈ d.saved, x.id ≠ s.id)
    (keys : KeysSuffice (d.saved ++ [s])) :
    ∃ next, d.act (.save s) = (.ok (), next) ∧ next.saved = d.saved ++ [s] ∧ next.IsLog ∧
      d.tables.Grows next.tables := by
  obtain ⟨n, t', saved, grows, holds⟩ := h.holds.save_new dated fresh keys
  obtain ⟨out, encoded, -⟩ := exists_line dated
  have line : logLine? s = some (out ++ "\n") := by rw [logLine?, encoded, Option.map_some]
  refine ⟨⟨t', d.file ++ (out ++ "\n"), d.saved ++ [s]⟩, ?_, rfl, ⟨?_, ?_, ?_, holds⟩, grows⟩
  · rw [act, append, saved, line]
    rfl
  · exact List.forall_mem_append.2 ⟨h.dated, List.forall_mem_singleton.2 dated⟩
  · rw [h.file, written_concat line]
  · exact replay?_concat h.replayed saved

theorem act_save_error {e : StoreError} (refused : save d.tables s = .error e) :
    d.act (.save s) = (.error e, d) := by
  rw [act, append, refused]
  rfl

theorem act_save_full (h : d.IsLog) (dated : s.IsDated) (fresh : ∀ x ∈ d.saved, x.id ≠ s.id)
    (keys : ¬ KeysSuffice (d.saved ++ [s])) : d.act (.save s) = (.error .full, d) :=
  act_save_error (h.holds.save_full dated fresh keys)

theorem act_save_duplicate (h : d.IsLog) (dated : s.IsDated) {x : Snapshot} (hx : x ∈ d.saved)
    (same : x.id = s.id) : d.act (.save s) = (.error .duplicateId, d) :=
  act_save_error (h.holds.save_duplicate dated hx same)

theorem act (h : d.IsLog) {a : Action} (dated : ∀ s, a = .save s → s.IsDated) :
    (d.act a).2.IsLog ∧ d.tables.Grows (d.act a).2.tables := by
  have unchanged : d.IsLog ∧ d.tables.Grows d.tables := ⟨h, .refl _⟩
  cases a with
  | reopen => rwa [h.act_reopen]
  | save s =>
    have hs := dated s rfl
    by_cases fresh : ∀ x ∈ d.saved, x.id ≠ s.id
    · by_cases keys : KeysSuffice (d.saved ++ [s])
      · obtain ⟨next, done, -, isLog, grows⟩ := h.act_save_new hs fresh keys
        rw [done]
        exact ⟨isLog, grows⟩
      · rwa [h.act_save_full hs fresh keys]
    · push Not at fresh
      obtain ⟨x, hx, same⟩ := fresh
      rwa [h.act_save_duplicate hs hx same]

theorem foldl {actions : List Action} (h : d.IsLog) (dated : ∀ s, .save s ∈ actions → s.IsDated) :
    (actions.foldl (fun d a => (d.act a).2) d).IsLog ∧
      d.tables.Grows (actions.foldl (fun d a => (d.act a).2) d).tables := by
  induction actions generalizing d with
  | nil => exact ⟨h, .refl _⟩
  | cons a rest ih =>
    obtain ⟨next, grows⟩ := h.act fun s e => dated s (e ▸ List.mem_cons_self)
    obtain ⟨last, grows'⟩ := ih next fun s hs => dated s (List.mem_cons_of_mem _ hs)
    exact ⟨last, grows.trans grows'⟩

end IsLog

/-- What can be told of every database that snapshots from JSON were saved in, whatever else was tried
and however often it was opened again. -/
theorem act_after {actions : List Action}
    (decoded : ∀ s, .save s ∈ actions → ∃ text, Snapshot.decode? text = some s) :
    (∀ text s, Snapshot.decode? text = some s →
      (((after actions).act (.save s)).1 = .ok () ↔
        (∀ x ∈ (after actions).saved, x.id ≠ s.id) ∧ KeysSuffice ((after actions).saved ++ [s])) ∧
      ∀ e, ((after actions).act (.save s)).1 = .error e →
        ((after actions).act (.save s)).2 = after actions ∧
          (e = .duplicateId ∧ (∃ x ∈ (after actions).saved, x.id = s.id) ∨
            e = .full ∧ ¬ KeysSuffice ((after actions).saved ++ [s]))) ∧
    (after actions).act .reopen = (.ok (), after actions) ∧
    (∀ n, (after (actions.take n)).tables.Grows (after actions).tables) ∧
    (after actions).tables.snapshotCount = (after actions).saved.length ∧
    latest (after actions).tables =
      (after actions).saved.getLast?.elim (.error .noData) (fun s => .ok s.stored) ∧
    List.Forall₂ (fun row s => (after actions).tables.loadSnapshot row = .ok s.stored)
      (after actions).tables.snapshots.rows (after actions).saved := by
  have dated : ∀ s, .save s ∈ actions → s.IsDated := by
    intro s hs
    obtain ⟨text, read⟩ := decoded s hs
    exact Snapshot.isDated_of_decode? read
  have isLog : (after actions).IsLog := (isLog_new.foldl dated).1
  refine ⟨?_, isLog.act_reopen, ?_, isLog.holds.rows.length_eq, isLog.holds.latest_eq,
    isLog.holds.loadSnapshot⟩
  · intro text s read
    have hs := Snapshot.isDated_of_decode? read
    by_cases fresh : ∀ x ∈ (after actions).saved, x.id ≠ s.id
    · by_cases keys : KeysSuffice ((after actions).saved ++ [s])
      · obtain ⟨next, done, -⟩ := isLog.act_save_new hs fresh keys
        rw [done]
        exact ⟨iff_of_true rfl ⟨fresh, keys⟩, nofun⟩
      · rw [isLog.act_save_full hs fresh keys]
        refine ⟨iff_of_false nofun fun h => keys h.2, ?_⟩
        rintro e ⟨⟩
        exact ⟨rfl, .inr ⟨rfl, keys⟩⟩
    · obtain ⟨x, hx, same⟩ : ∃ x ∈ (after actions).saved, x.id = s.id := by simpa using fresh
      rw [isLog.act_save_duplicate hs hx same]
      refine ⟨iff_of_false nofun fun h => fresh h.1, ?_⟩
      rintro e ⟨⟩
      exact ⟨rfl, .inl ⟨rfl, x, hx, same⟩⟩
  · intro n
    have before : (after (actions.take n)).IsLog :=
      (isLog_new.foldl fun s hs => dated s (List.mem_of_mem_take hs)).1
    have rest : ∀ s, .save s ∈ actions.drop n → s.IsDated :=
      fun s hs => dated s (List.mem_of_mem_drop hs)
    have grows := (before.foldl rest).2
    rwa [after, ← List.foldl_append, List.take_append_drop] at grows

def firstScan : Snapshot :=
  ⟨⟨1⟩, ⟨2024, 6, 12, 7, 0, 0, 0, 0, by decide⟩, [⟨"a", "::1", [], [⟨"/a", 420⟩], []⟩]⟩

def secondScan : Snapshot :=
  ⟨⟨2⟩, ⟨2024, 6, 12, 8, 0, 0, 0, 0, by decide⟩, [⟨"a", "::1", [], [⟨"/b", 420⟩], []⟩]⟩

def firstText : String :=
  "[\"00000000-0000-0000-0000-000000000001\",\"2024-06-12T07:00:00Z\"," ++
    "[[\"a\",\"::1\",[],[[\"/a\",420]],[]]]]"

def secondText : String :=
  "[\"00000000-0000-0000-0000-000000000002\",\"2024-06-12T08:00:00Z\"," ++
    "[[\"a\",\"::1\",[],[[\"/b\",420]],[]]]]"

def visits : List Action := [.save firstScan, .reopen, .save secondScan, .save firstScan, .reopen]

theorem act_after_visits : (after visits).saved = [firstScan, secondScan] ∧
    latest (after visits).tables = .ok secondScan.stored := by
  have first : Snapshot.decode? firstText = some firstScan := by decide +kernel
  have second : Snapshot.decode? secondText = some secondScan := by decide +kernel
  have saved : (after visits).saved = [firstScan, secondScan] := by
    have dated := Snapshot.isDated_of_decode? first
    have keys : KeysSuffice [firstScan] := fun k => by cases k <;> decide +kernel
    have keys' : KeysSuffice [firstScan, secondScan] := fun k => by cases k <;> decide +kernel
    obtain ⟨d, done, saved, isLog, -⟩ := isLog_new.act_save_new dated (List.forall_mem_nil _) keys
    obtain ⟨d', done', saved', isLog', -⟩ :=
      isLog.act_save_new (s := secondScan) (Snapshot.isDated_of_decode? second)
        (by rw [saved]; decide) (by rw [saved]; exact keys')
    have held : firstScan ∈ d'.saved := by
      rw [saved', saved]
      exact List.mem_cons_self
    rw [after, visits, List.foldl_cons, done, List.foldl_cons, isLog.act_reopen, List.foldl_cons,
      done', List.foldl_cons, isLog'.act_save_duplicate dated held rfl, List.foldl_cons,
      isLog'.act_reopen, List.foldl_nil, saved', saved]
    rfl
  have decoded : ∀ s, .save s ∈ visits → ∃ text, Snapshot.decode? text = some s := by
    intro s hs
    simp only [visits, List.mem_cons, List.not_mem_nil, or_false, reduceCtorEq, false_or,
      Action.save.injEq] at hs
    rcases hs with rfl | rfl | rfl
    · exact ⟨_, first⟩
    · exact ⟨_, second⟩
    · exact ⟨_, first⟩
  obtain ⟨-, -, -, -, loaded, -⟩ := act_after decoded
  rw [saved] at loaded
  exact ⟨saved, loaded⟩

end Session

end FleetPosture.Store

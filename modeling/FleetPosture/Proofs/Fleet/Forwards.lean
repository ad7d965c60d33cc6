import FleetPosture.Proofs.Fleet.ForwardCounts
import Mathlib.Data.List.Induction
import Mathlib.Data.List.Nodup

/-! The forwards that scans side by side open and close. Between the steps of one scan others act, on
the shared table as on ssh; at any time the table holds the forwards that were kept and not taken, and
no two of them have a local port in common. -/

namespace FleetPosture.Fleet.Source

open Program
open Remote (SshOptions SshSession)

section Table

variable {f : Forward} {l : List Forward} {localPort : UInt16}

def DistinctPorts (l : List Forward) : Prop := (l.map (·.localPort)).Nodup

theorem filter_ne_of_not_mem (fresh : localPort ∉ l.map (·.localPort)) :
    l.filter (·.localPort != localPort) = l := by
  refine List.filter_eq_self.2 fun f hf => bne_iff_ne.2 ?_
  rintro rfl
  exact fresh (List.mem_map_of_mem hf)

theorem forwards_keep {s : Gateway.State} (distinct : DistinctPorts (f :: s.forwards)) :
    (s.keep f).forwards = f :: s.forwards :=
  congrArg (f :: ·) (filter_ne_of_not_mem (List.nodup_cons.1 distinct).1)

theorem liveAfter_take (distinct : DistinctPorts l) :
    liveAfter l ⟨.gateway (.take localPort), l.find? (·.localPort == localPort)⟩ =
      l.filter (·.localPort != localPort) := by
  induction l with
  | nil => rfl
  | cons f l ih =>
    obtain ⟨fresh, others⟩ := List.nodup_cons.1 distinct
    rw [List.find?_cons, List.filter_cons, bne]
    cases same : f.localPort == localPort with
    | true =>
      obtain rfl := beq_iff_eq.1 same
      show (f :: l).erase f = l.filter (·.localPort != f.localPort)
      rw [List.erase_cons_head, filter_ne_of_not_mem fresh]
    | false =>
      show liveAfter (f :: l) ⟨.gateway (.take localPort), l.find? (·.localPort == localPort)⟩ =
        f :: l.filter (·.localPort != localPort)
      rw [← ih others]
      cases found : l.find? (·.localPort == localPort) with
      | none => rfl
      | some h =>
        have port : h.localPort = localPort := by simpa using List.find?_some found
        have other : f ≠ h := by
          rintro rfl
          exact ne_of_beq_false same port
        exact List.erase_cons_tail (by simpa using other)

end Table

section Tracking

variable {outside : World Answer} {control : Option String} {now now' : Gateway.State}
  {front calls : List (Call Answer)} {c : Call Answer} {f : Forward}

theorem isOpen_of_mem_live (counted : Counted calls) (disciplined : Disciplined calls)
    (h : f ∈ live calls) : IsOpen f calls := by
  have alive : 0 < (live calls).count f := List.count_pos_iff.2 h
  have total := counted f
  -- it is cancelled no more than taken, taken less than kept, kept no more than opened
  calc
    calls.countP (cancels f) ≤ calls.countP (takes f) := disciplined.cancelled_le f
    _ < calls.countP (keeps f) := by omega
    _ ≤ calls.countP (opens f) := disciplined.kept_le f

theorem distinctPorts_live (openings : Openings calls) (counted : Counted calls)
    (disciplined : Disciplined calls) : DistinctPorts (live calls) := by
  have nodup : (live calls).Nodup := by
    refine List.nodup_iff_count_le_one.2 fun f => ?_
    have kept := disciplined.kept_le f
    have cancelled := disciplined.cancelled_le f
    have once := openings.once f
    have total := counted f
    omega
  refine List.Nodup.map_on (fun f hf f' hf' same => ?_) nodup
  exact openings.alone f f' same (isOpen_of_mem_live counted disciplined hf)
    (isOpen_of_mem_live counted disciplined hf')

structure Tracks (control : Option String) (calls : List (Call Answer)) (now : Gateway.State) :
    Prop where
  control_eq : now.control = control
  forwards_eq : now.forwards = live calls
  openings : Openings calls
  counted : Counted calls

theorem Responds.mem_forwards (h : Responds outside front now c now') (taken : takes f c = true) :
    f ∈ now.forwards := by
  cases h with
  | taken localPort => exact List.mem_of_find?_eq_some (beq_iff_eq.1 taken)
  | outside r other => cases r <;> first | exact absurd rfl (other _) | exact absurd taken nofun
  | _ => exact absurd taken nofun

theorem Responds.opens_eq_false (refuses : RefusesHeld outside) (h : Responds outside front now c now')
    {held : Forward} (holds : Holds held front) (same : held.localPort = f.localPort) :
    opens f c = false := by
  cases h with
  | launched arguments => exact refuses front arguments f held holds same
  | outside r other => cases r <;> first | rfl | exact absurd rfl (other _)
  | _ => rfl

theorem Responds.control_eq (h : Responds outside front now c now')
    (connected : LeavesConnection c.request) : now'.control = now.control := by
  cases h with
  | established socket => exact absurd rfl (connected.2 socket)
  | disconnected => exact absurd rfl connected.1
  | _ => rfl

theorem Responds.forwards_eq (h : Responds outside front now c now')
    (same : now.forwards = live front) (distinct : DistinctPorts (live front))
    (distinct' : DistinctPorts (live (front ++ [c]))) : now'.forwards = live (front ++ [c]) := by
  rw [live_concat, ← same] at distinct' ⊢
  rw [← same] at distinct
  cases h with
  | kept f => exact forwards_keep distinct'
  | taken localPort => exact (liveAfter_take distinct).symm
  | outside r other => cases r <;> first | rfl | exact absurd rfl (other _)
  | _ => rfl

theorem Tracks.concat (refuses : RefusesHeld outside) (h : Tracks control front now)
    (disciplined : Disciplined (front ++ [c])) (answered : Responds outside front now c now') :
    Tracks control (front ++ [c]) now' := by
  have earlier : Disciplined front := disciplined.of_prefix (List.prefix_append front [c])
  have openings : Openings (front ++ [c]) := by
    refine h.openings.concat fun f opened held same isOpen => ?_
    have refused := answered.opens_eq_false refuses (h.openings.holds held isOpen) same
    exact Bool.false_ne_true (refused.symm.trans opened)
  have counted : Counted (front ++ [c]) := by
    refine h.counted.concat fun f taken => ?_
    exact h.forwards_eq ▸ answered.mem_forwards taken
  have last : c ∈ front ++ [c] := List.mem_append_right _ List.mem_cons_self
  refine ⟨?_, ?_, openings, counted⟩
  · rw [answered.control_eq (disciplined.connected c last), h.control_eq]
  · exact answered.forwards_eq h.forwards_eq (distinctPorts_live h.openings h.counted earlier)
      (distinctPorts_live openings counted disciplined)

theorem tracks_of_answers (refuses : RefusesHeld outside) (disciplined : Disciplined calls)
    {after : List (Call Answer)}
    (answered : Answers (machine outside) (⟨control, []⟩, []) calls (now, after)) :
    Tracks control calls now := by
  -- on the last call: the table before it says what it finds there
  induction calls using List.reverseRecOn generalizing now after with
  | nil =>
    cases answered
    exact ⟨rfl, rfl, .nil, fun _ => rfl⟩
  | append_singleton front c ih =>
    obtain ⟨before, earlier, last⟩ := answers_machine_concat answered
    exact (ih (disciplined.of_prefix (List.prefix_append front [c])) earlier).concat refuses
      disciplined last

end Tracking

section Runs

variable {g : Gateway} {outside : World Answer} {control asked : Option String}
  {front calls log : List (Call Answer)}

/-- What the log of a machine shows at any time: the table holds exactly the live forwards, these hold
local ports that differ, and whoever releases a local port gets the live forward from it, if any. -/
structure Tracked (outside : World Answer) (control : Option String) (log : List (Call Answer)) :
    Prop where
  table : ∀ front, front <+: log → ∃ now : Gateway.State,
    Answers (machine outside) (⟨control, []⟩, []) front (now, front) ∧ now.forwards = live front
  distinct : ∀ front, front <+: log → ((live front).map (·.localPort)).Nodup
  held : ∀ front, front <+: log → ∀ f ∈ live front, Holds f front
  taken : ∀ front localPort found, front ++ [⟨.gateway (.take localPort), found⟩] <+: log →
    found = (live front).find? (·.localPort == localPort)
  connected : ∀ socket, ⟨.gateway .control, socket⟩ ∈ log → socket = control

section Log

variable {start now : Gateway.State} {after : List (Call Answer)}

theorem exists_answers_of_prefix (answered : Answers (machine outside) (start, []) log (now, after))
    (sofar : front <+: log) : ∃ s, Answers (machine outside) (start, []) front (s, front) := by
  obtain ⟨back, rfl⟩ := sofar
  obtain ⟨⟨s, before⟩, earlier, -⟩ := answered.exists_of_append
  obtain rfl : before = front := answers_machine_log earlier
  exact ⟨s, earlier⟩

theorem tracked_of_answers (refuses : RefusesHeld outside) (disciplined : Disciplined log)
    (answered : Answers (machine outside) (⟨control, []⟩, []) log (now, after)) :
    Tracked outside control log := by
  have tracks {front : List (Call Answer)} {s : Gateway.State} (sofar : front <+: log)
      (earlier : Answers (machine outside) (⟨control, []⟩, []) front (s, front)) :
      Tracks control front s := tracks_of_answers refuses (disciplined.of_prefix sofar) earlier
  have responds (front : List (Call Answer)) (c : Call Answer) (sofar : front ++ [c] <+: log) :
      ∃ s s', Tracks control front s ∧ Responds outside front s c s' := by
    obtain ⟨s', reached⟩ := exists_answers_of_prefix answered sofar
    obtain ⟨s, earlier, last⟩ := answers_machine_concat reached
    exact ⟨s, s', tracks ((List.prefix_append front [c]).trans sofar) earlier, last⟩
  refine ⟨fun front sofar => ?_, fun front sofar => ?_, fun front sofar f alive => ?_,
    fun front localPort found sofar => ?_, fun socket asked => ?_⟩
  · obtain ⟨s, earlier⟩ := exists_answers_of_prefix answered sofar
    exact ⟨s, earlier, (tracks sofar earlier).forwards_eq⟩
  · obtain ⟨s, earlier⟩ := exists_answers_of_prefix answered sofar
    have counts := tracks sofar earlier
    exact distinctPorts_live counts.openings counts.counted (disciplined.of_prefix sofar)
  · obtain ⟨s, earlier⟩ := exists_answers_of_prefix answered sofar
    have counts := tracks sofar earlier
    exact counts.openings.holds f
      (isOpen_of_mem_live counts.counted (disciplined.of_prefix sofar) alive)
  · obtain ⟨s, s', counts, last⟩ := responds _ _ sofar
    cases last with
    | taken => exact congrArg (List.find? _) counts.forwards_eq
    | outside r other => exact absurd rfl (other _)
  · obtain ⟨front, back, rfl⟩ := List.append_of_mem asked
    obtain ⟨s, s', counts, last⟩ := responds front _ (List.prefix_append_right_inj front |>.2
      (List.prefix_append [_] back))
    cases last with
    | connection => exact counts.control_eq
    | outside r other => exact absurd rfl (other _)

end Log

section Served

variable {c : Call (Fleet.Answer (S := SshSession))} {f : Forward}

theorem Serves.of_control (h : Serves g asked c calls)
    (same : ∀ socket, ⟨.gateway .control, socket⟩ ∈ calls → socket = control) :
    Serves g control c calls := by
  cases h with
  | unconnected address port e down =>
    exact .unconnected address port e (same none List.mem_cons_self).symm
  | unreserved address port e cause up =>
    exact .unreserved address port e cause (same _ List.mem_cons_self).symm
  | refused f e run up failed => exact .refused f e run (same _ List.mem_cons_self).symm failed
  | opened f run up succeeded => exact .opened f run (same _ List.mem_cons_self).symm succeeded
  | ignored e =>
    obtain rfl := same asked (List.mem_cons_of_mem _ List.mem_cons_self)
    exact .ignored e
  | released e f run up =>
    exact .released e f run (same _ (List.mem_cons_of_mem _ List.mem_cons_self)).symm
  | other unrelated idle => exact .other unrelated idle

theorem Serves.free_of_none (h : Serves g none c calls) : ∀ d ∈ calls, Free d := by
  cases h with
  | unconnected => simp [Free.control]
  | ignored => simp [Free.control, Free.take]
  | other unrelated idle => exact fun d hd => .of_isIdle (idle d hd)
  | unreserved _ _ _ _ up => exact nomatch up
  | refused _ _ _ up => exact nomatch up
  | opened _ _ up => exact nomatch up
  | released _ _ _ up => exact nomatch up

theorem exists_keep_of_mem_live (h : f ∈ live log) : ∃ d ∈ log, keeps f d = true := by
  induction log using List.reverseRecOn with
  | nil => exact absurd h List.not_mem_nil
  | append_singleton front d ih =>
    have earlier (alive : f ∈ live front) : ∃ d' ∈ front ++ [d], keeps f d' = true := by
      obtain ⟨d', hd', kept⟩ := ih alive
      exact ⟨d', List.mem_append_left _ hd', kept⟩
    rw [live_concat] at h
    unfold liveAfter at h
    split at h
    · rcases List.mem_cons.1 h with rfl | alive
      · exact ⟨_, List.mem_append_right _ List.mem_cons_self, beq_iff_eq.2 rfl⟩
      · exact earlier alive
    · exact earlier (List.mem_of_mem_erase h)
    · exact earlier h

end Served

section Tasks

variable {s : Source} {o : SshOptions} {α : Type}
  {task : Program (Fleet.Answer (S := SshSession)) α}
  {tasks : List (Program (Fleet.Answer (S := SshSession)) α)}

abbrev ServedCall := Call (Fleet.Answer (S := SshSession)) × List (Call Answer)

def requests (run : List ServedCall) : List (Call Answer) := run.flatMap (·.2)

def IsHostTask (task : Program (Fleet.Answer (S := SshSession)) α) : Prop :=
  ∀ calls a, Makes task calls a → ∀ c ∈ calls, ¬ IsShared c

theorem isHostTask_scanHost (options : ScanOptions) (target : Target) :
    IsHostTask (scanHost options target) :=
  fun _ _ made => (makes_scanHost made).1.not_isShared

theorem exists_served (through : s.gateway? = some g) (own : IsHostTask task) {a : α}
    (h : Makes (task.run (s.handle o)) calls a) :
    ∃ run : List ServedCall, calls = requests run ∧ Makes task (run.map (·.1)) a ∧
      ∀ call ∈ run, (∃ control, Serves g control call.1 call.2) ∨ Dropped call.2 := by
  obtain ⟨inner, parts, made, rfl, each⟩ := makes_run h
  obtain ⟨sameLength, zipped⟩ := List.forall₂_iff_zip.1 each
  have calls : (inner.zip parts).map Prod.fst = inner := List.map_fst_zip (Nat.le_of_eq sameLength)
  have answers : (inner.zip parts).map Prod.snd = parts :=
    List.map_snd_zip (Nat.le_of_eq sameLength.symm)
  refine ⟨inner.zip parts, ?_, calls.symm ▸ made, fun call hcall => ?_⟩
  · rw [requests, List.flatMap_def]
    exact (congrArg List.flatten answers).symm
  · exact exists_serves through (own inner a made _ (List.of_mem_zip hcall).1) (zipped hcall)

theorem exists_served_each (through : s.gateway? = some g) (own : ∀ task ∈ tasks, IsHostTask task)
    {runs : List (List (Call Answer) × α)}
    (each : List.Forall₂ (fun p r => Makes p r.1 r.2) (tasks.map (·.run (s.handle o))) runs) :
    ∃ served : List (List ServedCall), runs.map (·.1) = served.map requests ∧
      List.Forall₂ (fun task run => ∃ a, Makes task (run.map (·.1)) a) tasks served ∧
      ∀ run ∈ served, ∀ call ∈ run, (∃ control, Serves g control call.1 call.2) ∨ Dropped call.2 := by
  induction tasks generalizing runs with
  | nil =>
    cases each
    exact ⟨[], rfl, .nil, List.forall_mem_nil _⟩
  | cons task tasks ih =>
    obtain _ | ⟨made, others⟩ := each
    obtain ⟨first, rest⟩ := List.forall_mem_cons.1 own
    obtain ⟨run, requested, run_makes, calls⟩ := exists_served through first made
    obtain ⟨served, same, all, each⟩ := ih rest others
    refine ⟨run :: served, ?_, .cons ⟨_, run_makes⟩ all, List.forall_mem_cons.2 ⟨calls, each⟩⟩
    rw [List.map_cons, List.map_cons, requested, same]

/-- Every call of the tasks is served in full, and at any time the table is right. -/
structure ForwardsTracked (g : Gateway) (outside : World Answer) (control : Option String)
    (tasks : List (Program (Fleet.Answer (S := SshSession)) α)) (log : List (Call Answer)) : Prop where
  served : ∃ runs : List (List ServedCall),
    List.Forall₂ (fun task run => ∃ a, Makes task (run.map (·.1)) a) tasks runs ∧
    (∀ run ∈ runs, ∀ call ∈ run, Serves g control call.1 call.2) ∧
    Interleaves (runs.map requests) log
  tracked : Tracked outside control log

theorem mem_log_iff {runs : List (List ServedCall)} (interleaved : Interleaves (runs.map requests) log)
    {c : Call Answer} : c ∈ log ↔ ∃ run ∈ runs, ∃ call ∈ run, c ∈ call.2 := by
  simp [interleaved.perm.mem_iff, requests]

theorem not_dropped {runs : List (List ServedCall)} {run : List ServedCall} {call : ServedCall}
    (interleaved : Interleaves (runs.map requests) log) (tracked : Tracked outside control log)
    (each : ∀ run ∈ runs, ∀ call ∈ run, (∃ control, Serves g control call.1 call.2) ∨ Dropped call.2)
    (hrun : run ∈ runs) (hcall : call ∈ run) : ¬ Dropped call.2 := by
  rintro ⟨localPort, f, dropped⟩
  have inLog {c : Call Answer} (hc : c ∈ call.2) : c ∈ log :=
    (mem_log_iff interleaved).2 ⟨run, hrun, call, hcall, hc⟩
  have down : none = control :=
    tracked.connected none (inLog (dropped ▸ List.mem_cons_of_mem _ List.mem_cons_self))
  subst down
  have free : ∀ d ∈ log, Free d := by
    intro d hd
    obtain ⟨run, hrun, call, hcall, hd⟩ := (mem_log_iff interleaved).1 hd
    rcases each run hrun call hcall with ⟨asked, serves⟩ | dropped
    · have unconnected : Serves g none call.1 call.2 := serves.of_control fun socket hs =>
        tracked.connected socket ((mem_log_iff interleaved).2 ⟨run, hrun, call, hcall, hs⟩)
      exact unconnected.free_of_none d hd
    · exact dropped.free d hd
  have taken : ⟨.gateway (.take localPort), some f⟩ ∈ log := inLog (dropped ▸ List.mem_cons_self)
  obtain ⟨front, back, rfl⟩ := List.append_of_mem taken
  have found := tracked.taken front localPort (some f) (List.prefix_append_right_inj front |>.2
    (List.prefix_append [_] back))
  obtain ⟨d, hd, kept⟩ := exists_keep_of_mem_live (List.mem_of_find?_eq_some found.symm)
  exact Bool.false_ne_true (((free d (List.mem_append_left _ hd)).keeps_eq f).symm.trans kept)

/-- Whatever order the tasks act in, their forwards are tracked, and every forward is written so that
it is read back and like no other. -/
theorem forwards_exact (through : s.gateway? = some g) (o : SshOptions)
    (refuses : RefusesHeld outside) (control : Option String) (schedule : List Nat)
    (own : ∀ task ∈ tasks, IsHostTask task) :
    (∃ values now log, (interleave (machine outside) schedule (tasks.map (·.run (s.handle o)))).run
        (⟨control, []⟩, []) = (values, now, log) ∧ now.forwards = live log ∧
      ForwardsTracked g outside control tasks log) ∧
      (∀ f : Forward, Unbracketed f.address → Forward.ofSpec? f.spec = some ("127.0.0.1", f)) ∧
      Function.Injective Forward.spec := by
  refine ⟨?_, fun _ => ofSpec?_spec, spec_injective⟩
  obtain ⟨runs, values, log, ⟨now, after⟩, run, answered, each, interleaved, -⟩ :=
    exists_answers_interleave (machine outside) schedule (tasks.map (·.run (s.handle o)))
      (⟨control, []⟩, [])
  obtain rfl : after = log := answers_machine_log answered
  obtain ⟨served, same, makes, calls⟩ := exists_served_each through own each
  rw [same] at interleaved
  have disciplined : Disciplined after := by
    refine .interleaves interleaved (List.forall_mem_map.2 fun run hrun => ?_)
    refine .flatMap fun call hcall => ?_
    rcases calls run hrun call hcall with ⟨_, serves⟩ | dropped
    · exact serves.disciplined
    · exact .of_free dropped.free
  have tracked : Tracked outside control after := tracked_of_answers refuses disciplined answered
  have ended : now.forwards = live after :=
    (tracks_of_answers refuses disciplined answered).forwards_eq
  refine ⟨values, now, after, run, ended, ⟨served, makes, fun run hrun call hcall => ?_,
    interleaved⟩, tracked⟩
  rcases calls run hrun call hcall with ⟨asked, serves⟩ | dropped
  · exact serves.of_control fun socket hs =>
      tracked.connected socket ((mem_log_iff interleaved).2 ⟨run, hrun, call, hcall, hs⟩)
  · exact absurd dropped (not_dropped interleaved tracked calls hrun hcall)

section FirstOnly

def isOpening : Call Answer → Bool
  | ⟨.gateway (.launch _), run⟩ => run.isSuccess
  | _ => false

/-- An outside whose ssh succeeds once, and where the local port is always the same. -/
def firstOnly : World Answer
  | before, .gateway (.launch _) =>
    .finished ⟨[], [], .code (if before.any isOpening then 255 else 0), 0⟩
  | _, .gateway .reservePort => .ok 40000
  | _, .gateway .control => none
  | _, .gateway (.establish _) => ()
  | _, .gateway .takeControl => none
  | _, .gateway (.keep _) => ()
  | _, .gateway (.take _) => none
  | _, .fetch _ => .error (.of "refused")
  | _, .resolve _ => .error (.of "refused")
  | _, .scanKeys _ => .error (.of "refused")
  | _, .probe _ => .absent

theorem refusesHeld_firstOnly : RefusesHeld firstOnly := by
  rintro before arguments f held ⟨front, c, back, rfl, opened, -⟩ -
  have earlier : (front ++ c :: back).any isOpening = true := by
    refine List.any_eq_true.2 ⟨c, List.mem_append_right _ List.mem_cons_self, ?_⟩
    unfold opens at opened
    split at opened
    · exact (opens_launch.1 opened).2
    · exact absurd opened Bool.false_ne_true
  have failed : (firstOnly (front ++ c :: back) (.gateway (.launch arguments))).isSuccess = false := by
    simp only [firstOnly, earlier, if_true]
    rfl
  rw [opens, failed, Bool.and_false]

def behindGateway : Gateway := ⟨"gw", "jumper", none, "/tmp/fleetaudit-7.sock"⟩

def twoScans : List (Program (Fleet.Answer (S := SshSession)) (Except HostFailure Host)) :=
  [⟨"web", some 0, "", ["10.0.0.5"]⟩, ⟨"web", some 1, "", ["2001:db8::7"]⟩].map
    (scanHost ⟨22, [], none⟩)

theorem forwards_exact_twoScans :
    RefusesHeld firstOnly ∧ (∀ task ∈ twoScans, IsHostTask task) ∧
    (∃ values now log, (interleave (machine firstOnly) [0, 1, 0, 1, 0, 1] (twoScans.map
        (·.run ((Source.directory ⟨"https://fleet", "prod", none, 30⟩ behindGateway).handle
          SshOptions.standard)))).run (⟨behindGateway.control, []⟩, []) = (values, now, log) ∧
        now.forwards = live log ∧
        ForwardsTracked behindGateway firstOnly behindGateway.control twoScans log) ∧
      (∀ f : Forward, Unbracketed f.address → Forward.ofSpec? f.spec = some ("127.0.0.1", f)) ∧
      Function.Injective Forward.spec := by
  have own : ∀ task ∈ twoScans, IsHostTask task := List.forall_mem_map.2 fun target _ =>
    isHostTask_scanHost ⟨22, [], none⟩ target
  exact ⟨refusesHeld_firstOnly, own, forwards_exact rfl SshOptions.standard refusesHeld_firstOnly
    (some behindGateway.control) [0, 1, 0, 1, 0, 1] own⟩

end FirstOnly

end Tasks

end Runs
end FleetPosture.Fleet.Source

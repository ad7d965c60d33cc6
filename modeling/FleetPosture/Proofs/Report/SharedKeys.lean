import FleetPosture.Proofs.Indexed
import FleetPosture.Proofs.KeepFirst
import FleetPosture.Proofs.Report.TlsCoverage
import FleetPosture.Proofs.SortedMap
import FleetPosture.Proofs.Text.Utf8
import FleetPosture.Report.Rules
import Mathlib.Data.List.Forall2
import Mathlib.Data.List.Induction
import Mathlib.Data.List.Nodup
import Mathlib.Data.Set.Card

/-! The report on shared host keys. It has a group for every key that hosts of two identities offer,
by ascending key, and in the group these identities in the order in which they are first met with the
key. Which identities offer a key is all that counts, not how often one does. -/

namespace FleetPosture

def Snapshot.withHosts (s : Snapshot) (hosts : List Host) : Snapshot := { s with hosts := hosts }

def Host.Offers (h : Host) (key : String) : Prop := ∃ k ∈ h.sshKeys, k.key = key

instance (h : Host) (key : String) : Decidable (h.Offers key) :=
  inferInstanceAs (Decidable (∃ k ∈ h.sshKeys, k.key = key))

namespace Report

variable {s t : Snapshot} {key identity : String}

def OffersKey (s : Snapshot) (identity key : String) : Prop :=
  ∃ h ∈ s.hosts, h.identity = identity ∧ h.Offers key

def OffersKeyAt (s : Snapshot) (i : Nat) (identity key : String) : Prop :=
  ∃ h, s.hosts[i]? = some h ∧ h.identity = identity ∧ h.Offers key

section Holders

def offerer? (key : String) (h : Host) : Option String :=
  if h.Offers key then some h.identity else none

theorem offerer?_eq_some_iff {h : Host} :
    offerer? key h = some identity ↔ h.identity = identity ∧ h.Offers key := by
  rw [offerer?, Option.ite_none_right_eq_some, Option.some.injEq, and_comm]

def holders (s : Snapshot) (key : String) : List String :=
  keepFirst id (s.hosts.filterMap (offerer? key))

theorem mem_holders_iff : identity ∈ holders s key ↔ OffersKey s identity key := by
  simp only [holders, mem_keepFirst_id_iff, List.mem_filterMap, offerer?_eq_some_iff, OffersKey]

theorem nodup_holders (s : Snapshot) (key : String) : (holders s key).Nodup := by
  have distinct : ((holders s key).map id).Nodup := nodup_map_keepFirst _
  rwa [List.map_id] at distinct

theorem pairwise_holders (s : Snapshot) (key : String) : (holders s key).Pairwise fun a b =>
    ∃ i, OffersKeyAt s i a key ∧ ∀ j, OffersKeyAt s j b key → i < j := by
  have listed : holders s key =
      (keepFirst Prod.snd (foundAt (offerer? key) s.hosts)).map Prod.snd := by
    rw [holders, ← map_foundAt]
    exact keepFirst_map _ _
  have at_iff {i : Nat} {a : String} :
      (i, a) ∈ foundAt (offerer? key) s.hosts ↔ OffersKeyAt s i a key := by
    simp only [mem_foundAt_iff, offerer?_eq_some_iff, OffersKeyAt]
  rw [listed]
  refine (pairwise_map_keepFirst (R := (· < ·)) Nat.lt_trans pairwise_foundAt).imp ?_
  rintro a b ⟨i, first, before⟩
  exact ⟨i, at_iff.1 first, fun j later => before j (at_iff.2 later)⟩

/-- The list has the identities that offer the key, each once, in the order in which hosts of them
that offer it are first met. -/
structure ListsHolders (s : Snapshot) (key : String) (ids : List String) : Prop where
  nodup : ids.Nodup
  mem_iff : ∀ identity, identity ∈ ids ↔ OffersKey s identity key
  order : ids.Pairwise fun a b =>
    ∃ i, OffersKeyAt s i a key ∧ ∀ j, OffersKeyAt s j b key → i < j

theorem listsHolders_iff {ids : List String} : ListsHolders s key ids ↔ ids = holders s key := by
  constructor
  · intro lists
    have same : ids.Perm (holders s key) := by
      rw [List.perm_ext_iff_of_nodup lists.nodup (nodup_holders s key)]
      intro identity
      rw [lists.mem_iff, mem_holders_iff]
    refine same.eq_of_pairwise ?_ lists.order (pairwise_holders s key)
    rintro a b - - ⟨i, atA, beforeB⟩ ⟨j, atB, beforeA⟩
    -- each would be met before the other
    exact absurd (beforeB j atB) (Nat.lt_asymm (beforeA i atA))
  · rintro rfl
    exact ⟨nodup_holders s key, fun _ => mem_holders_iff, pairwise_holders s key⟩

end Holders

section Offers

def keyOffers (s : Snapshot) : List (String × String) :=
  s.hosts.flatMap fun h => h.sshKeys.map fun k => (k.key, h.identity)

def offerersOf (key : String) (offers : List (String × String)) : List String :=
  offers.filterMap fun offer => if offer.1 = key then some offer.2 else none

theorem offerersOf_concat (key : String) (offers : List (String × String))
    (offer : String × String) : offerersOf key (offers ++ [offer]) =
      if offer.1 = key then offerersOf key offers ++ [offer.2] else offerersOf key offers := by
  rw [offerersOf, List.filterMap_append, List.filterMap_cons, List.filterMap_nil]
  by_cases here : offer.1 = key
  · rw [if_pos here, if_pos here, ← offerersOf]
  · rw [if_neg here, if_neg here, List.append_nil, ← offerersOf]

def enter (m : SortedMap (List String)) (offer : String × String) : SortedMap (List String) :=
  m.alter offer.1 fun ids =>
    if offer.2 ∈ ids.getD [] then ids.getD [] else ids.getD [] ++ [offer.2]

theorem keyHolders_eq (s : Snapshot) : keyHolders s = (keyOffers s).foldl enter .empty := rfl

def nonempty? (ids : List String) : Option (List String) := if ids.isEmpty then none else some ids

@[simp]
theorem getD_nonempty? (ids : List String) : (nonempty? ids).getD [] = ids := by
  cases ids <;> rfl

theorem isSome_nonempty? (ids : List String) : (nonempty? ids).isSome ↔ ids ≠ [] := by
  cases ids <;> simp [nonempty?]

theorem get?_foldl_enter (offers : List (String × String)) (key : String) :
    (offers.foldl enter .empty).get? key = nonempty? (keepFirst id (offerersOf key offers)) := by
  induction offers using List.reverseRecOn with
  | nil => rfl
  | append_singleton offers offer ih =>
    rw [List.foldl_append, List.foldl_cons, List.foldl_nil, enter, SortedMap.get?_alter,
      offerersOf_concat]
    by_cases here : offer.1 = key
    · subst here
      rw [if_pos rfl, if_pos rfl, ih, getD_nonempty?, keepFirst_id_concat]
      split
      case isTrue old => rw [nonempty?, if_neg fun none => by simp_all [List.isEmpty_iff]]
      case isFalse => rw [nonempty?, if_neg (by simp)]
    · rw [if_neg fun same => here same.symm, if_neg here, ih]

/-- The offers of a key by one host are a run, for which the first of them stands. -/
theorem keepFirst_offerersOf (s : Snapshot) (key : String) :
    keepFirst id (offerersOf key (keyOffers s)) = holders s key := by
  let run (h : Host) : List String :=
    h.sshKeys.filterMap fun k => if k.key = key then some h.identity else none
  have mem_run {h : Host} {identity : String} :
      identity ∈ run h ↔ h.Offers key ∧ h.identity = identity := by
    simp only [run, List.mem_filterMap, Option.ite_none_right_eq_some, Option.some.injEq,
      Host.Offers, ← exists_and_right, and_assoc]
  have byHost : offerersOf key (keyOffers s) = s.hosts.flatMap run := by
    simp only [offerersOf, keyOffers, List.filterMap_flatMap, List.filterMap_map,
      Function.comp_def, run]
  have first (h : Host) : (run h).head? = offerer? key h := by
    rw [offerer?]
    split
    case isTrue offers =>
      obtain ⟨k, ks, hrun⟩ := List.exists_cons_of_ne_nil
        (List.ne_nil_of_mem (mem_run.2 ⟨offers, rfl⟩))
      have own : k ∈ run h := hrun ▸ List.mem_cons_self
      rw [hrun, List.head?_cons, (mem_run.1 own).2]
    case isFalse silent =>
      rw [List.head?_eq_none_iff, List.eq_nil_iff_forall_not_mem]
      exact fun identity listed => silent (mem_run.1 listed).1
  rw [byHost, keepFirst_runs, holders]
  · exact congrArg _ (List.filterMap_congr fun h _ => first h)
  · exact fun h _ k hk k' hk' => (mem_run.1 hk).2.symm.trans (mem_run.1 hk').2

theorem get?_keyHolders (s : Snapshot) (key : String) :
    (keyHolders s).get? key = nonempty? (holders s key) := by
  rw [keyHolders_eq, get?_foldl_enter, keepFirst_offerersOf]

end Offers

section Groups

def sharedKeys (s : Snapshot) : List String :=
  ((keyHolders s).entries.map (·.1)).filter fun key => 2 ≤ (holders s key).length

theorem mem_sharedKeys_iff : key ∈ sharedKeys s ↔ 2 ≤ (holders s key).length := by
  rw [sharedKeys, List.mem_filter, decide_eq_true_eq, SortedMap.mem_keys_iff, get?_keyHolders,
    isSome_nonempty?, and_iff_right_iff_imp]
  intro shared none
  simp [none] at shared

theorem pairwise_sharedKeys (s : Snapshot) : (sharedKeys s).Pairwise (· < ·) :=
  (List.pairwise_map.2 (keyHolders s).sorted).filter _

theorem nodup_sharedKeys (s : Snapshot) : (sharedKeys s).Nodup := (keyHolders s).nodup_keys.filter _

theorem flatMap_filter {α β : Type} (p : α → Bool) (f : α → List β) (xs : List α) :
    (xs.filter p).flatMap f = xs.flatMap fun x => if p x then f x else [] := by
  induction xs with
  | nil => rfl
  | cons x xs ih =>
    rw [List.filter_cons, List.flatMap_cons, ← ih]
    split <;> rfl

theorem duplicateSshKeys_rows (s : Snapshot) : (duplicateSshKeys s).rows =
    (sharedKeys s).flatMap fun key => (holders s key).map fun identity => [identity] := by
  rw [sharedKeys, flatMap_filter, List.flatMap_map]
  refine List.flatMap_congr fun e he => ?_
  have listed : e.2 = holders s e.1 := by
    rw [← getD_nonempty? (holders s e.1), ← get?_keyHolders, SortedMap.get?_of_mem he,
      Option.getD_some]
  rw [← listed]
  simp only [decide_eq_true_eq]
  rfl

theorem sharedKeys_congr (same : ∀ key, (holders s key).length = (holders t key).length) :
    sharedKeys s = sharedKeys t := by
  have keys : (sharedKeys s).Perm (sharedKeys t) := by
    rw [List.perm_ext_iff_of_nodup (nodup_sharedKeys s) (nodup_sharedKeys t)]
    intro key
    rw [mem_sharedKeys_iff, mem_sharedKeys_iff, same]
  exact keys.eq_of_pairwise (fun _ _ _ _ lt gt => absurd gt (String.lt_asymm lt))
    (pairwise_sharedKeys s) (pairwise_sharedKeys t)

theorem duplicateSshKeys_rows_congr (same : ∀ key, holders s key = holders t key) :
    (duplicateSshKeys s).rows = (duplicateSshKeys t).rows := by
  rw [duplicateSshKeys_rows, duplicateSshKeys_rows,
    sharedKeys_congr fun key => congrArg _ (same key)]
  simp only [same]

theorem duplicateSshKeys_rows_perm_of_holders
    (same : ∀ key identity, OffersKey s identity key ↔ OffersKey t identity key) :
    (duplicateSshKeys s).rows.Perm (duplicateSshKeys t).rows := by
  have order (key : String) : (holders s key).Perm (holders t key) := by
    rw [List.perm_ext_iff_of_nodup (nodup_holders s key) (nodup_holders t key)]
    intro identity
    rw [mem_holders_iff, mem_holders_iff, same]
  rw [duplicateSshKeys_rows, duplicateSshKeys_rows,
    sharedKeys_congr fun key => (order key).length_eq]
  exact List.Perm.flatMap_left _ fun key _ => (order key).map _

end Groups

section Counts

theorem count_flatMap_of_nodup {α β : Type} [BEq β] [LawfulBEq β] {f : α → List β}
    (nodup : ∀ x, (f x).Nodup) (y : β) (xs : List α) :
    (xs.flatMap f).count y = (xs.filter fun x => y ∈ f x).length := by
  induction xs with
  | nil => rfl
  | cons x xs ih =>
    rw [List.flatMap_cons, List.count_append, ih, (nodup x).count, List.filter_cons]
    split
    case isTrue listed => rw [if_pos (decide_eq_true listed), List.length_cons, Nat.add_comm]
    case isFalse missing => rw [if_neg (by simpa using missing), Nat.zero_add]

theorem two_le_length_iff {ids : List String} (nodup : ids.Nodup) (mem : identity ∈ ids) :
    2 ≤ ids.length ↔ ∃ other ∈ ids, other ≠ identity := by
  obtain ⟨front, back, rfl⟩ := List.append_of_mem mem
  obtain ⟨new, -⟩ := List.nodup_cons.1 (List.nodup_middle.1 nodup)
  constructor
  · intro long
    have others : front ++ back ≠ [] := by
      intro none
      rw [List.append_eq_nil_iff] at none
      simp [none.1, none.2] at long
    obtain ⟨other, hother⟩ := List.exists_mem_of_ne_nil _ others
    refine ⟨other, ?_, fun same => new (same ▸ hother)⟩
    exact List.perm_middle.mem_iff.2 (List.mem_cons_of_mem _ hother)
  · rintro ⟨other, hother, differs⟩
    have rest := (List.mem_cons.1 (List.perm_middle.mem_iff.1 hother)).resolve_left differs
    have pos := List.length_pos_of_mem rest
    rw [List.length_append] at pos
    rw [List.length_append, List.length_cons]
    omega

def sharedWithOthers (s : Snapshot) (identity : String) : Set String :=
  {key | OffersKey s identity key ∧ ∃ other, other ≠ identity ∧ OffersKey s other key}

theorem count_duplicateSshKeys_rows (s : Snapshot) (identity : String) :
    (duplicateSshKeys s).rows.count [identity] = (sharedWithOthers s identity).ncard := by
  have row (key : String) :
      [identity] ∈ (holders s key).map (fun id => [id]) ↔ identity ∈ holders s key := by simp
  have nodup (key : String) : ((holders s key).map fun id => [id]).Nodup :=
    (nodup_holders s key).map fun _ _ same => (List.cons.inj same).1
  have keys : sharedWithOthers s identity =
      ((sharedKeys s).filter fun key => identity ∈ holders s key).toFinset := by
    ext key
    rw [sharedWithOthers, Set.mem_ofPred_eq, Finset.mem_coe, List.mem_toFinset, List.mem_filter,
      mem_sharedKeys_iff, decide_eq_true_eq, and_comm, ← mem_holders_iff]
    refine and_congr_left fun listed => ?_
    simp only [two_le_length_iff (nodup_holders s key) listed, mem_holders_iff, and_comm]
  have distinct : ((sharedKeys s).filter fun key => identity ∈ holders s key).Nodup :=
    (nodup_sharedKeys s).filter _
  rw [duplicateSshKeys_rows, count_flatMap_of_nodup nodup, keys, Set.ncard_coe_finset,
    List.toFinset_card_of_nodup distinct]
  simp only [row]

end Counts

section Repeats

structure SameOffers (g h : Host) : Prop where
  identity : g.identity = h.identity
  offers : ∀ key, g.Offers key ↔ h.Offers key

def RepeatsOffers (hosts : List Host) (h : Host) : Prop :=
  ∀ key, h.Offers key → ∃ g ∈ hosts, g.identity = h.identity ∧ g.Offers key

variable {hosts before after : List Host} {h : Host}

theorem holders_of_sameOffers (same : List.Forall₂ SameOffers s.hosts hosts) (key : String) :
    holders (s.withHosts hosts) key = holders s key := by
  have offerers : s.hosts.filterMap (offerer? key) = hosts.filterMap (offerer? key) := by
    generalize s.hosts = own at same
    induction same with
    | nil => rfl
    | cons host _ ih =>
      rw [List.filterMap_cons, List.filterMap_cons, ih]
      simp only [offerer?, host.identity, host.offers]
  exact (congrArg _ offerers).symm

theorem holders_insert (place : s.hosts = before ++ after) (repeats : RepeatsOffers before h)
    (key : String) : holders (s.withHosts (before ++ h :: after)) key = holders s key := by
  have offerers : (before ++ h :: after).filterMap (offerer? key) =
      before.filterMap (offerer? key) ++
        ((offerer? key h).toList ++ after.filterMap (offerer? key)) := by
    rw [List.filterMap_append, List.filterMap_cons]
    cases offerer? key h <;> rfl
  have met : ∀ y ∈ (offerer? key h).toList, ∃ x ∈ before.filterMap (offerer? key), id x = id y := by
    intro y hy
    obtain ⟨rfl, offers⟩ := offerer?_eq_some_iff.1 (Option.mem_toList.1 hy)
    obtain ⟨g, hg, same⟩ := repeats key offers
    exact ⟨_, List.mem_filterMap.2 ⟨g, hg, offerer?_eq_some_iff.2 same⟩, rfl⟩
  show keepFirst id ((before ++ h :: after).filterMap (offerer? key)) = _
  rw [offerers, keepFirst_append_of_met met, holders, place, List.filterMap_append]

theorem offersKey_insert (place : s.hosts = before ++ after) (repeats : RepeatsOffers s.hosts h)
    (identity key : String) :
    OffersKey (s.withHosts (before ++ h :: after)) identity key ↔ OffersKey s identity key := by
  have hosts : ∀ g, g ∈ before ++ h :: after ↔ g = h ∨ g ∈ s.hosts := by
    intro g
    rw [List.perm_middle.mem_iff, List.mem_cons, place]
  constructor
  · rintro ⟨g, hg, rfl, offers⟩
    rcases (hosts g).1 hg with rfl | hg
    · exact repeats key offers
    · exact ⟨g, hg, rfl, offers⟩
  · rintro ⟨g, hg, offers⟩
    exact ⟨g, (hosts g).2 (.inr hg), offers⟩

end Repeats

/-- Every key that two identities offer has a group of rows, by ascending bytes of the key, with each
of these identities once in the order in which they are first met; so an identity has a row for each
key that it shares. Further offers of a key by a host change nothing, nor do those by a later result
of the host's identity; those by an earlier result change the order at most. -/
theorem duplicateSshKeys_exact (s : Snapshot) :
    (∃ groups : List (String × List String),
      (duplicateSshKeys s).rows = (groups.flatMap fun g => g.2.map fun identity => [identity]) ∧
      (groups.Pairwise fun g g' => Text.utf8 g.1 < Text.utf8 g'.1) ∧
      ∀ key ids, (key, ids) ∈ groups ↔ 2 ≤ ids.length ∧ ListsHolders s key ids) ∧
    (∀ identity, (duplicateSshKeys s).rows.count [identity] =
      {key | OffersKey s identity key ∧ ∃ other, other ≠ identity ∧ OffersKey s other key}.ncard) ∧
    (∀ hosts, List.Forall₂ SameOffers s.hosts hosts →
      (duplicateSshKeys (s.withHosts hosts)).rows = (duplicateSshKeys s).rows) ∧
    ∀ before after h, s.hosts = before ++ after →
      (RepeatsOffers before h → (duplicateSshKeys (s.withHosts (before ++ h :: after))).rows =
        (duplicateSshKeys s).rows) ∧
      (RepeatsOffers s.hosts h → (duplicateSshKeys (s.withHosts (before ++ h :: after))).rows.Perm
        (duplicateSshKeys s).rows) := by
  refine ⟨⟨(sharedKeys s).map fun key => (key, holders s key), ?_, ?_, fun key ids => ?_⟩,
    count_duplicateSshKeys_rows s, fun hosts same => ?_, fun before after h place => ⟨?_, ?_⟩⟩
  · rw [duplicateSshKeys_rows, List.flatMap_map]
  · exact List.pairwise_map.2 ((pairwise_sharedKeys s).imp fun lt => Text.utf8_lt lt)
  · rw [listsHolders_iff, List.mem_map]
    constructor
    · rintro ⟨_, shared, same⟩
      obtain ⟨rfl, rfl⟩ := Prod.mk.inj same
      exact ⟨mem_sharedKeys_iff.1 shared, rfl⟩
    · rintro ⟨shared, rfl⟩
      exact ⟨key, mem_sharedKeys_iff.2 shared, rfl⟩
  · exact duplicateSshKeys_rows_congr (holders_of_sameOffers same)
  · exact fun repeats => duplicateSshKeys_rows_congr (holders_insert place repeats)
  · exact fun repeats => duplicateSshKeys_rows_perm_of_holders fun key identity =>
      offersKey_insert place repeats identity key

def offering (name : String) (keys : List String) : Host :=
  ⟨name, "10.0.0.1", [], [], keys.map fun key => ⟨"ssh-rsa", key⟩⟩

theorem duplicateSshKeys_exact_again :
    let first := offering "web/0" ["BBBB", "AAAA", "BBBB"]
    let s := namesakes.withHosts [first, offering "web/1" ["BBBB"], offering "db/0" ["AAAA"]]
    let again := offering "web/0" ["AAAA"]
    RepeatsOffers s.hosts again ∧
      (duplicateSshKeys s).rows = [["web/0"], ["db/0"], ["web/0"], ["web/1"]] ∧
      (duplicateSshKeys (s.withHosts (s.hosts ++ [again]))).rows = (duplicateSshKeys s).rows ∧
      {key | OffersKey s "web/0" key ∧
        ∃ other, other ≠ "web/0" ∧ OffersKey s other key}.ncard = 2 := by
  intro first s again
  have repeats : RepeatsOffers s.hosts again := by
    rintro key ⟨k, hk, rfl⟩
    obtain rfl := List.mem_singleton.1 hk
    exact ⟨first, List.mem_cons_self, rfl, by decide⟩
  have rows : (duplicateSshKeys s).rows = [["web/0"], ["db/0"], ["web/0"], ["web/1"]] := by
    decide +kernel
  obtain ⟨-, counts, -, repeated⟩ := duplicateSshKeys_exact s
  refine ⟨repeats, rows, (repeated s.hosts [] again (List.append_nil _).symm).1 repeats, ?_⟩
  rw [← counts, rows]
  decide

end Report
end FleetPosture

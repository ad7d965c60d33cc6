import FleetPosture.Manifest.Basic
import Mathlib.Data.List.Induction

/-! Which entry counts for a host: of those that cover it the longest, and the last of equally long
ones. An entry that names the host itself outranks every shorter one. -/

namespace FleetPosture

namespace HostSpec

theorem covers_iff {s : HostSpec} {identity : String} :
    s.covers identity ↔ s.covered.toList <+: identity.toList := by
  rw [covers, List.isPrefixOf_iff_prefix]

theorem covers_self (s : HostSpec) : s.covers s.covered := covers_iff.2 List.prefix_rfl

theorem size_lt_of_covers {s : HostSpec} {identity : String} (h : s.covers identity)
    (hne : s.covered ≠ identity) : s.covered.utf8ByteSize < identity.utf8ByteSize := by
  -- the rest of the identity is nonempty, since only equal texts leave nothing
  obtain ⟨rest, hrest⟩ := covers_iff.1 h
  have split : identity = s.covered ++ String.ofList rest := by
    rw [← String.toList_inj, String.toList_append, String.toList_ofList, hrest]
  have hpos : (String.ofList rest).utf8ByteSize ≠ 0 := by
    intro h0
    rw [String.utf8ByteSize_eq_zero_iff] at h0
    exact hne (by rw [split, h0, String.append_empty])
  rw [split, String.utf8ByteSize_append]
  omega

theorem covered_eq_of_size_eq {r s : HostSpec} {identity : String} (hr : r.covers identity)
    (hs : s.covers identity) (same : r.covered.utf8ByteSize = s.covered.utf8ByteSize) :
    r.covered = s.covered := by
  -- two beginnings of one identity that are equally long are equal, since one begins the
  -- other
  by_contra hne
  rcases List.prefix_or_prefix_of_prefix (covers_iff.1 hr) (covers_iff.1 hs) with h | h
  · have shorter := size_lt_of_covers (covers_iff.2 h) hne
    omega
  · have shorter := size_lt_of_covers (covers_iff.2 h) (Ne.symm hne)
    omega

end HostSpec

namespace Manifest

/-- The entry covers the host, no covering entry before it is longer, and all after it are
shorter. -/
def MostSpecific (specs : List HostSpec) (identity : String) (s : HostSpec) : Prop :=
  ∃ before after, specs = before ++ s :: after ∧ s.covers identity ∧
    (∀ r ∈ before, r.covers identity → r.covered.utf8ByteSize ≤ s.covered.utf8ByteSize) ∧
    ∀ r ∈ after, r.covers identity → r.covered.utf8ByteSize < s.covered.utf8ByteSize

namespace MostSpecific

variable {specs : List HostSpec} {identity : String} {r s x : HostSpec}

theorem covers (h : MostSpecific specs identity s) : s.covers identity := by
  obtain ⟨_, _, _, hs, _⟩ := h
  exact hs

theorem mem (h : MostSpecific specs identity s) : s ∈ specs := by
  obtain ⟨before, after, rfl, _⟩ := h
  exact List.mem_append_right _ List.mem_cons_self

theorem size_le (h : MostSpecific specs identity s) (hr : r ∈ specs) (hc : r.covers identity) :
    r.covered.utf8ByteSize ≤ s.covered.utf8ByteSize := by
  obtain ⟨before, after, rfl, _, hb, ha⟩ := h
  rcases List.mem_append.1 hr with hr | hr
  · exact hb r hr hc
  · rcases List.mem_cons.1 hr with rfl | hr
    · exact Nat.le_refl _
    · exact Nat.le_of_lt (ha r hr hc)

theorem unique (h : MostSpecific specs identity r) (h' : MostSpecific specs identity s) : r = s := by
  obtain ⟨b, a, hspecs, hr, hb, ha⟩ := h
  obtain ⟨b', a', hspecs', hs, hb', ha'⟩ := h'
  rcases List.append_eq_append_iff.1 (hspecs.symm.trans hspecs') with ⟨t, ht, hat⟩ | ⟨t, ht, hat⟩
  · rcases t with _ | ⟨y, t⟩
    · exact (List.cons.inj hat).1
    · obtain ⟨rfl, rfl⟩ := List.cons.inj hat
      have hlt := ha s (by simp) hs
      have hle := hb' r (by simp [ht]) hr
      omega
  · rcases t with _ | ⟨y, t⟩
    · exact (List.cons.inj hat).1.symm
    · obtain ⟨rfl, rfl⟩ := List.cons.inj hat
      have hlt := ha' r (by simp) hr
      have hle := hb s (by simp [ht]) hs
      omega

theorem concat_of_lt (h : MostSpecific specs identity s)
    (hx : x.covers identity → x.covered.utf8ByteSize < s.covered.utf8ByteSize) :
    MostSpecific (specs ++ [x]) identity s := by
  obtain ⟨before, after, rfl, hs, hb, ha⟩ := h
  refine ⟨before, after ++ [x], by simp, hs, hb, fun r hr hc => ?_⟩
  rcases List.mem_append.1 hr with hr | hr
  · exact ha r hr hc
  · obtain rfl := List.mem_singleton.1 hr
    exact hx hc

theorem concat_self (hx : x.covers identity)
    (h : ∀ r ∈ specs, r.covers identity → r.covered.utf8ByteSize ≤ x.covered.utf8ByteSize) :
    MostSpecific (specs ++ [x]) identity x :=
  ⟨specs, [], rfl, hx, h, fun _ hr => absurd hr (List.not_mem_nil)⟩

end MostSpecific

variable {m : Manifest} {identity : String} {s : HostSpec}

theorem specFor?_concat (specs : List HostSpec) (x : HostSpec) (identity : String) :
    specFor? ⟨specs ++ [x]⟩ identity =
      if x.covers identity then
        some (((specFor? ⟨specs⟩ identity).map (·.moreSpecific x)).getD x)
      else specFor? ⟨specs⟩ identity := by
  by_cases hx : x.covers identity <;>
    simp only [specFor?, List.filter_append, List.filter_cons, List.filter_nil, hx, if_true,
      if_false, List.foldl_append, List.foldl_cons, List.foldl_nil, Bool.false_eq_true]

theorem specFor?_spec (specs : List HostSpec) (identity : String) :
    match specFor? ⟨specs⟩ identity with
    | none => ∀ s ∈ specs, ¬ s.covers identity
    | some s => MostSpecific specs identity s := by
  induction specs using List.reverseRecOn with
  | nil => exact fun s hs => absurd hs List.not_mem_nil
  | append_singleton specs x ih =>
    rw [specFor?_concat]
    cases hbest : specFor? ⟨specs⟩ identity with
    | none =>
      rw [hbest] at ih
      by_cases hx : x.covers identity
      · rw [if_pos hx]
        exact .concat_self hx fun r hr hc => absurd hc (ih r hr)
      · rw [if_neg hx]
        intro s hs
        rcases List.mem_append.1 hs with hs | hs
        · exact ih s hs
        · exact List.mem_singleton.1 hs ▸ hx
    | some best =>
      rw [hbest] at ih
      have ih : MostSpecific specs identity best := ih
      by_cases hx : x.covers identity
      · rw [if_pos hx]
        -- of two entries of one length the later one counts
        by_cases hle : best.covered.utf8ByteSize ≤ x.covered.utf8ByteSize
        · simp only [Option.map_some, Option.getD_some, HostSpec.moreSpecific, if_pos hle]
          exact .concat_self hx fun r hr hc => Nat.le_trans (ih.size_le hr hc) hle
        · simp only [Option.map_some, Option.getD_some, HostSpec.moreSpecific, if_neg hle]
          exact ih.concat_of_lt fun _ => Nat.not_le.1 hle
      · rw [if_neg hx]
        exact ih.concat_of_lt fun hc => absurd hc hx

theorem specFor?_eq_none_iff :
    m.specFor? identity = none ↔ ∀ s ∈ m.specs, ¬ s.covers identity := by
  have spec := specFor?_spec m.specs identity
  constructor
  · intro h
    rwa [h] at spec
  · intro h
    cases hbest : m.specFor? identity with
    | none => rfl
    | some best =>
      rw [hbest] at spec
      exact absurd spec.covers (h best spec.mem)

theorem specFor?_eq_some_iff :
    m.specFor? identity = some s ↔ MostSpecific m.specs identity s := by
  have spec := specFor?_spec m.specs identity
  constructor
  · intro h
    rwa [h] at spec
  · intro h
    cases hbest : m.specFor? identity with
    | none =>
      rw [hbest] at spec
      exact absurd h.covers (spec s h.mem)
    | some best =>
      rw [hbest] at spec
      rw [MostSpecific.unique spec h]

theorem specFor?_of_named {before after : List HostSpec} (hm : m.specs = before ++ s :: after)
    (hb : ∀ r ∈ before, r.covered ≠ s.covered) (ha : ∀ r ∈ after, r.covered ≠ s.covered) :
    m.specFor? s.covered = some s :=
  specFor?_eq_some_iff.2 ⟨before, after, hm, s.covers_self,
    fun r hr hc => Nat.le_of_lt (HostSpec.size_lt_of_covers hc (hb r hr)),
    fun r hr hc => HostSpec.size_lt_of_covers hc (ha r hr)⟩

/-- The host's identity begins with what the entry names, and with nothing longer that any entry
names. -/
structure IsLongest (specs : List HostSpec) (identity : String) (s : HostSpec) : Prop where
  mem : s ∈ specs
  begins : s.covered.toList <+: identity.toList
  size_le : ∀ r ∈ specs, r.covered.toList <+: identity.toList →
    r.covered.utf8ByteSize ≤ s.covered.utf8ByteSize

theorem IsLongest.perm {specs specs' : List HostSpec} (h : IsLongest specs identity s)
    (perm : specs.Perm specs') : IsLongest specs' identity s :=
  ⟨perm.mem_iff.1 h.mem, h.begins, fun r hr => h.size_le r (perm.mem_iff.2 hr)⟩

theorem mostSpecific_iff_isLongest {specs : List HostSpec}
    (distinct : (specs.map (·.covered)).Nodup) :
    MostSpecific specs identity s ↔ IsLongest specs identity s := by
  constructor
  · intro h
    exact ⟨h.mem, HostSpec.covers_iff.1 h.covers, fun r hr begins =>
      h.size_le hr (HostSpec.covers_iff.2 begins)⟩
  · rintro ⟨mem, begins, size_le⟩
    have hs : s.covers identity := HostSpec.covers_iff.2 begins
    obtain ⟨before, after, rfl⟩ := List.append_of_mem mem
    refine ⟨before, after, rfl, hs, fun r hr hc => ?_, fun r hr hc => ?_⟩
    · exact size_le r (List.mem_append_left _ hr) (HostSpec.covers_iff.1 hc)
    · have le := size_le r (by simp [hr]) (HostSpec.covers_iff.1 hc)
      refine Nat.lt_of_le_of_ne le fun same => ?_
      have named : r.covered = s.covered := HostSpec.covered_eq_of_size_eq hc hs same
      rw [List.map_append, List.map_cons] at distinct
      obtain ⟨-, later, -⟩ := List.nodup_append.1 distinct
      exact (List.nodup_cons.1 later).1 (named ▸ List.mem_map_of_mem hr)

/-- No entry counts just when none covers the host; of those that do the last of the longest counts;
and where no two entries name the same, this is the longest in whatever order they stand. -/
theorem specFor?_exact (m : Manifest) (identity : String) :
    (m.specFor? identity = none ↔ ∀ s ∈ m.specs, ¬ s.covered.toList <+: identity.toList) ∧
      (∀ s, m.specFor? identity = some s ↔ MostSpecific m.specs identity s) ∧
      ((m.specs.map (·.covered)).Nodup → ∀ n : Manifest, n.specs.Perm m.specs →
        n.specFor? identity = m.specFor? identity ∧
          ∀ s, n.specFor? identity = some s ↔ IsLongest m.specs identity s) := by
  refine ⟨?_, fun s => specFor?_eq_some_iff, fun distinct n perm => ?_⟩
  · rw [specFor?_eq_none_iff]
    simp only [HostSpec.covers_iff]
  · have distinct' : (n.specs.map (·.covered)).Nodup := (perm.map _).nodup_iff.2 distinct
    have longest (s : HostSpec) : n.specFor? identity = some s ↔ IsLongest m.specs identity s := by
      rw [specFor?_eq_some_iff, mostSpecific_iff_isLongest distinct']
      exact ⟨fun h => h.perm perm, fun h => h.perm perm.symm⟩
    have longest' (s : HostSpec) : m.specFor? identity = some s ↔ IsLongest m.specs identity s := by
      rw [specFor?_eq_some_iff, mostSpecific_iff_isLongest distinct]
    refine ⟨Option.ext fun s => ?_, longest⟩
    rw [longest, longest']

def overlapping : List HostSpec := [⟨"web", [], []⟩, ⟨"", [], []⟩, ⟨"web/1", [], []⟩, ⟨"db", [], []⟩]

theorem specFor?_exact_overlapping :
    let m : Manifest := ⟨overlapping⟩
    let n : Manifest := ⟨overlapping.reverse⟩
    let twice : Manifest := ⟨overlapping ++ [⟨"web/1", [], [80]⟩, ⟨"web", [], []⟩]⟩
    ((m.specs.map (·.covered)).Nodup ∧ n.specs.Perm m.specs) ∧
      n.specFor? "web/10" = m.specFor? "web/10" ∧
      m.specFor? "web/10" = some ⟨"web/1", [], []⟩ ∧
      twice.specFor? "web/10" = some ⟨"web/1", [], [80]⟩ := by
  intro m n twice
  have distinct : (m.specs.map (·.covered)).Nodup := by decide
  have perm : n.specs.Perm m.specs := List.reverse_perm overlapping
  obtain ⟨-, -, order⟩ := specFor?_exact m "web/10"
  have same : n.specFor? "web/10" = m.specFor? "web/10" := (order distinct n perm).1
  exact ⟨⟨distinct, perm⟩, same, by decide +kernel, by decide +kernel⟩

end Manifest
end FleetPosture

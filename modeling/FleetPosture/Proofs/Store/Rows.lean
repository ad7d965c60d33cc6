import FleetPosture.Proofs.Store.Write
import FleetPosture.Store.Overwrite

/-! The rows that belong to a row. A key that was never given has none, and a step that adds a row
changes what belongs to the new row's owner only. -/

namespace FleetPosture.Store

inductive Link
  | hosts
  | processes
  | ports
  | tls
  | ciphers
  | files
  | keys
deriving DecidableEq

namespace Link

abbrev Row : Link → Type
  | hosts => HostRow
  | processes => ProcessRow
  | ports => PortRow
  | tls => TlsRow
  | ciphers => CipherRow
  | files => FileRow
  | keys => KeyRow

def owner : Link → Kind
  | hosts => .snapshot
  | processes => .host
  | ports => .process
  | tls => .port
  | ciphers => .port
  | files => .host
  | keys => .host

end Link

namespace Tables

def under (t : Tables) : (l : Link) → Int → List l.Row
  | .hosts, k => t.hosts.rows.filter (·.snapshot == k)
  | .processes, k => t.processes.rows.filter (·.host == k)
  | .ports, k => t.ports.rows.filter (·.process == k)
  | .tls, k => t.tls.filter (·.port == k)
  | .ciphers, k => t.ciphers.rows.filter (·.port == k)
  | .files, k => t.files.rows.filter (·.host == k)
  | .keys, k => t.keys.rows.filter (·.host == k)

/-- Nothing belongs to a key that is still to be given. -/
def Grounded (t : Tables) : Prop := ∀ l k, t.used l.owner < k → t.under l k = []

theorem grounded_empty : empty.Grounded := by
  intro l k _
  cases l <;> rfl

end Tables

def Table.IsAscending {ρ : Type} [Keyed ρ] (t : Table ρ) : Prop :=
  t.rows.Pairwise fun a b => Keyed.key a < Keyed.key b

theorem Table.IsAscending.key_le_used {ρ : Type} [Keyed ρ] {t : Table ρ} (h : t.IsAscending) {r : ρ}
    (hr : r ∈ t.rows) : Keyed.key r ≤ t.used := by
  obtain hnil | ⟨rows, last, hrows⟩ := List.eq_nil_or_concat t.rows
  · exact absurd (hnil ▸ hr) List.not_mem_nil
  · rw [List.concat_eq_append] at hrows
    have greatest : Keyed.key r ≤ Keyed.key last := by
      rw [IsAscending, hrows, List.pairwise_append] at h
      rw [hrows, List.mem_append, List.mem_singleton] at hr
      rcases hr with hr | rfl
      · exact Int.le_of_lt (h.2.2 r hr last List.mem_cons_self)
      · exact Int.le_refl _
    refine Int.le_trans greatest ?_
    rw [used, hrows, List.getLast?_concat]
    exact Int.le_max_right _ _

theorem filter_eq_nil_of_owned {ρ σ : Type} [Keyed σ] {rows : List ρ} {owner : ρ → Int}
    {owners : List σ} {last k : Int} (owned : ∀ r ∈ rows, ∃ o ∈ owners, Keyed.key o = owner r)
    (given : ∀ o ∈ owners, Keyed.key o ≤ last) (above : last < k) :
    rows.filter (owner · == k) = [] := by
  rw [List.filter_eq_nil_iff]
  intro r hr heq
  obtain ⟨o, ho, hkey⟩ := owned r hr
  have := given o ho
  rw [hkey, eq_of_beq heq] at this
  omega

theorem Tables.grounded_of_isConsistent {t : Tables} (snapshots : t.snapshots.IsAscending)
    (hosts : t.hosts.IsAscending) (processes : t.processes.IsAscending)
    (ports : t.ports.IsAscending) (consistent : t.isConsistent) : t.Grounded := by
  simp only [isConsistent, Bool.and_eq_true, List.all_eq_true, List.any_eq_true, beq_iff_eq]
    at consistent
  obtain ⟨⟨⟨⟨⟨⟨ofHost, ofProcess⟩, ofPort⟩, ofTls⟩, ofCipher⟩, ofFile⟩, ofKey⟩ := consistent
  have settings : ∀ r ∈ t.tls, Keyed.key r ≤ t.ports.used := by
    intro r hr
    obtain ⟨p, hp, hkey⟩ := ofTls r hr
    rw [show Keyed.key r = Keyed.key p from hkey.symm]
    exact ports.key_le_used hp
  intro l k above
  cases l with
  | hosts => exact filter_eq_nil_of_owned ofHost (fun _ => snapshots.key_le_used) above
  | processes => exact filter_eq_nil_of_owned ofProcess (fun _ => hosts.key_le_used) above
  | ports => exact filter_eq_nil_of_owned ofPort (fun _ => processes.key_le_used) above
  | tls => exact filter_eq_nil_of_owned ofTls (fun _ => ports.key_le_used) above
  | ciphers => exact filter_eq_nil_of_owned ofCipher settings above
  | files => exact filter_eq_nil_of_owned ofFile (fun _ => hosts.key_le_used) above
  | keys => exact filter_eq_nil_of_owned ofKey (fun _ => hosts.key_le_used) above

structure Tables.Grows (t t' : Tables) : Prop where
  snapshots : t.snapshots.rows <+: t'.snapshots.rows
  hosts : t.hosts.rows <+: t'.hosts.rows
  processes : t.processes.rows <+: t'.processes.rows
  ports : t.ports.rows <+: t'.ports.rows
  tls : t.tls <+: t'.tls
  ciphers : t.ciphers.rows <+: t'.ciphers.rows
  files : t.files.rows <+: t'.files.rows
  keys : t.keys.rows <+: t'.keys.rows

namespace Tables.Grows

variable {t t' t'' : Tables}

theorem refl (t : Tables) : Grows t t := by constructor <;> exact List.prefix_rfl

theorem trans (h : Grows t t') (h' : Grows t' t'') : Grows t t'' where
  snapshots := h.snapshots.trans h'.snapshots
  hosts := h.hosts.trans h'.hosts
  processes := h.processes.trans h'.processes
  ports := h.ports.trans h'.ports
  tls := h.tls.trans h'.tls
  ciphers := h.ciphers.trans h'.ciphers
  files := h.files.trans h'.files
  keys := h.keys.trans h'.keys

end Tables.Grows

/-- What belongs to the keys that were given is as before, but for the owners in `changed`. -/
structure Spares (changed : Link → Int → Prop) (t t' : Tables) : Prop where
  used : ∀ k, t.used k ≤ t'.used k
  under : ∀ l k, k ≤ t.used l.owner → ¬ changed l k → t'.under l k = t.under l k

/-- Tables after more rows have been added, none of them to old owners but those in `changed`. -/
structure Extends (changed : Link → Int → Prop) (t t' : Tables) : Prop
    extends Spares changed t t' where
  snapshots : t'.snapshots = t.snapshots
  grows : t.Grows t'
  grounded : t'.Grounded

def only (l : Link) (o : Int) : Link → Int → Prop := fun l' k => l' = l ∧ k = o

theorem lt_of_only {t : Tables} {l l' : Link} {o k : Int} (above : t.used l.owner < o)
    (h : only l o l' k) : t.used l'.owner < k := by
  obtain ⟨rfl, rfl⟩ := h
  exact above

namespace Extends

variable {changed changed' : Link → Int → Prop} {t t' t'' : Tables}

theorem refl (grounded : t.Grounded) : Extends changed t t where
  snapshots := rfl
  grows := .refl t
  used _ := Int.le_refl _
  grounded := grounded
  under _ _ _ _ := rfl

theorem trans (h : Extends changed t t') (h' : Extends changed' t' t'')
    (old : ∀ l k, k ≤ t.used l.owner → changed' l k → changed l k) : Extends changed t t'' where
  snapshots := h'.snapshots.trans h.snapshots
  grows := h.grows.trans h'.grows
  used k := Int.le_trans (h.used k) (h'.used k)
  grounded := h'.grounded
  under l k hk hc := by
    have hc' : ¬ changed' l k := fun hc' => hc (old l k hk hc')
    rw [h'.under l k (Int.le_trans hk (h.used _)) hc', h.under l k hk hc]

theorem trans_new (h : Extends changed t t') (h' : Extends changed' t' t'')
    (new : ∀ l k, changed' l k → t.used l.owner < k) : Extends changed t t'' :=
  h.trans h' fun l k hk hc => absurd hk (Int.not_le.2 (new l k hc))

theorem imp (h : Extends changed t t') (weaker : ∀ l k, changed l k → changed' l k) :
    Extends changed' t t' where
  snapshots := h.snapshots
  grows := h.grows
  used := h.used
  grounded := h.grounded
  under l k hk hc := h.under l k hk fun hc' => hc (weaker l k hc')

end Extends

structure Added (l : Link) (o : Int) (r : l.Row) (t t' : Tables) : Prop where
  snapshots : t'.snapshots = t.snapshots
  grows : t.Grows t'
  used : ∀ k, t.used k ≤ t'.used k
  appended : ∀ k, t'.under l k = t.under l k ++ if o = k then [r] else []
  others : ∀ l' k, l' ≠ l → t'.under l' k = t.under l' k

namespace Added

variable {l : Link} {o : Int} {r : l.Row} {t t' : Tables} (h : Added l o r t t')

include h

theorem under_owner : t'.under l o = t.under l o ++ [r] := by rw [h.appended, if_pos rfl]

theorem toExtends (grounded : t.Grounded) (given : o ≤ t.used l.owner) : Extends (only l o) t t' where
  snapshots := h.snapshots
  grows := h.grows
  used := h.used
  grounded l' k hk := by
    have above : t.used l'.owner < k := Int.lt_of_le_of_lt (h.used _) hk
    by_cases hl : l' = l
    · subst hl
      rw [h.appended, grounded l' k above, if_neg (by omega), List.append_nil]
    · rw [h.others l' k hl, grounded l' k above]
  under l' k _ hc := by
    by_cases hl : l' = l
    · subst hl
      rw [h.appended, if_neg fun ho => hc ⟨rfl, ho.symm⟩, List.append_nil]
    · exact h.others l' k hl

end Added

theorem filter_concat {ρ : Type} (rows : List ρ) (r : ρ) (owner : ρ → Int) (k : Int) :
    (rows ++ [r]).filter (owner · == k) =
      rows.filter (owner · == k) ++ if owner r = k then [r] else [] := by
  rw [List.filter_append, List.filter_cons, List.filter_nil]
  simp only [beq_iff_eq]

namespace Meets

variable {t : Tables}

theorem add {ρ : Type} [Keyed ρ] {table : Tables → Table ρ} {replace : Tables → Table ρ → Tables}
    {row : Int → ρ} (kind : Kind) (used : (table t).used = t.used kind)
    (key : ∀ k, Keyed.key (row k) = k)
    (replaced : ∀ x k, (replace t x).used k = if k = kind then x.used else t.used k) :
    Meets (Write.add table replace row) t (Cost.one kind) fun k t' =>
      k = t.used kind + 1 ∧ t' = replace t ⟨(table t).rows ++ [row k], k⟩ := by
  have run : Write.add table replace row t = ((table t).add? row).elim (.error .full)
      fun added => .ok (added.1, replace t added.2) := by
    show (Write.add table replace row).run t = _
    simp only [Write.add, StateT.run_bind, StateT.run_get, pure_bind]
    cases (table t).add? row <;> rfl
  have fits_iff : t.Fits (Cost.one kind) ↔ (table t).used < Cell.maxInteger := by
    rw [used]
    constructor
    · intro fits
      have := fits kind (by simp [Cost.one])
      simp only [Cost.one, if_true] at this
      omega
    · intro h k hk
      simp only [Cost.one] at hk ⊢
      split at hk
      · next e => rw [e, if_pos rfl]; omega
      · exact absurd hk (Nat.lt_irrefl 0)
  constructor
  · intro fits
    rw [run, Table.add?_of_lt _ (fits_iff.1 fits)]
    refine ⟨_, _, rfl, ?_, ?_, ?_⟩
    · intro k
      rw [replaced, Table.used_append _ (key _), Cost.one, used]
      split
      · next e => rw [e]; rfl
      · exact (Int.add_zero _).symm
    · rw [used]
    · rfl
  · intro unfit
    rw [run, Table.add?_of_not_lt _ fun h => unfit (fits_iff.2 h), Option.elim_none]

end Meets

/-- A table whose rows belong to owners, as a part of all tables. -/
structure Place (l : Link) [Keyed l.Row] where
  kind : Kind
  table : Tables → Table l.Row
  replace : Tables → Table l.Row → Tables
  owner : l.Row → Int
  used_table : ∀ t, (table t).used = t.used kind
  used_replace : ∀ t x k, (replace t x).used k = if k = kind then x.used else t.used k
  under_table : ∀ t k, t.under l k = (table t).rows.filter (owner · == k)
  table_replace : ∀ t x, table (replace t x) = x
  under_replace : ∀ t x l' k, l' ≠ l → (replace t x).under l' k = t.under l' k
  snapshots_replace : ∀ t x, (replace t x).snapshots = t.snapshots
  grows_replace : ∀ t x, (table t).rows <+: x.rows → t.Grows (replace t x)

namespace Place

def hosts : Place .hosts where
  kind := .host
  table t := t.hosts
  replace t x := { t with hosts := x }
  owner r := r.snapshot
  used_table _ := rfl
  used_replace _ _ k := by cases k <;> rfl
  under_table _ _ := rfl
  table_replace _ _ := rfl
  under_replace _ _ l _ hl := by cases l <;> first | rfl | exact absurd rfl hl
  snapshots_replace _ _ := rfl
  grows_replace t _ h := { Tables.Grows.refl t with hosts := h }

def processes : Place .processes where
  kind := .process
  table t := t.processes
  replace t x := { t with processes := x }
  owner r := r.host
  used_table _ := rfl
  used_replace _ _ k := by cases k <;> rfl
  under_table _ _ := rfl
  table_replace _ _ := rfl
  under_replace _ _ l _ hl := by cases l <;> first | rfl | exact absurd rfl hl
  snapshots_replace _ _ := rfl
  grows_replace t _ h := { Tables.Grows.refl t with processes := h }

def ports : Place .ports where
  kind := .port
  table t := t.ports
  replace t x := { t with ports := x }
  owner r := r.process
  used_table _ := rfl
  used_replace _ _ k := by cases k <;> rfl
  under_table _ _ := rfl
  table_replace _ _ := rfl
  under_replace _ _ l _ hl := by cases l <;> first | rfl | exact absurd rfl hl
  snapshots_replace _ _ := rfl
  grows_replace t _ h := { Tables.Grows.refl t with ports := h }

def ciphers : Place .ciphers where
  kind := .cipher
  table t := t.ciphers
  replace t x := { t with ciphers := x }
  owner r := r.port
  used_table _ := rfl
  used_replace _ _ k := by cases k <;> rfl
  under_table _ _ := rfl
  table_replace _ _ := rfl
  under_replace _ _ l _ hl := by cases l <;> first | rfl | exact absurd rfl hl
  snapshots_replace _ _ := rfl
  grows_replace t _ h := { Tables.Grows.refl t with ciphers := h }

def files : Place .files where
  kind := .file
  table t := t.files
  replace t x := { t with files := x }
  owner r := r.host
  used_table _ := rfl
  used_replace _ _ k := by cases k <;> rfl
  under_table _ _ := rfl
  table_replace _ _ := rfl
  under_replace _ _ l _ hl := by cases l <;> first | rfl | exact absurd rfl hl
  snapshots_replace _ _ := rfl
  grows_replace t _ h := { Tables.Grows.refl t with files := h }

def keys : Place .keys where
  kind := .key
  table t := t.keys
  replace t x := { t with keys := x }
  owner r := r.host
  used_table _ := rfl
  used_replace _ _ k := by cases k <;> rfl
  under_table _ _ := rfl
  table_replace _ _ := rfl
  under_replace _ _ l _ hl := by cases l <;> first | rfl | exact absurd rfl hl
  snapshots_replace _ _ := rfl
  grows_replace t _ h := { Tables.Grows.refl t with keys := h }

end Place

theorem Meets.addTo {t : Tables} {l : Link} [Keyed l.Row] (place : Place l) {row : Int → l.Row} {o : Int}
    (owned : ∀ k, place.owner (row k) = o) (key : ∀ k, Keyed.key (row k) = k) :
    Meets (Write.add place.table place.replace row) t (Cost.one place.kind) fun k t' =>
      t.used place.kind < k ∧ k ≤ t'.used place.kind ∧ Added l o (row k) t t' := by
  have added := Meets.add (t := t) place.kind (place.used_table t) key (place.used_replace t)
  constructor
  · intro fits
    obtain ⟨k, t', run, grown, hk, ht'⟩ := added.room fits
    refine ⟨k, t', run, grown, hk ▸ Int.lt_succ _, ?_, ?_, ?_, ?_, ?_, ?_⟩
    · rw [grown, Cost.one, if_pos rfl, hk]
      omega
    · rw [ht', place.snapshots_replace]
    · rw [ht']
      exact place.grows_replace t _ (List.prefix_append _ _)
    · intro j
      rw [grown]
      omega
    · intro j
      rw [ht', place.under_table, place.table_replace, filter_concat, owned, place.under_table]
    · intro l' j hl
      rw [ht']
      exact place.under_replace _ _ l' j hl
  · exact added.full

end FleetPosture.Store

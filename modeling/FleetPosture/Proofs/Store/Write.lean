import FleetPosture.Store.Save

/-! What writing costs: steps that add rows need a new key for each of them. They succeed if there
are as many keys left, and run out of keys otherwise; in sequence their needs add up. -/

namespace FleetPosture.Store

namespace Table

variable {ρ : Type} [Keyed ρ] (t : Table ρ)

def used : Int := max t.lastKey ((t.rows.getLast?.map Keyed.key).getD 0)

theorem add?_of_lt (h : t.used < Cell.maxInteger) (row : Int → ρ) :
    t.add? row = some (t.used + 1, ⟨t.rows ++ [row (t.used + 1)], t.used + 1⟩) := by
  rw [add?, nextKey?]
  simp only [if_pos (show max t.lastKey ((t.rows.getLast?.map Keyed.key).getD 0) <
    Cell.maxInteger from h)]
  rfl

theorem add?_of_not_lt (h : ¬ t.used < Cell.maxInteger) (row : Int → ρ) : t.add? row = none := by
  rw [add?, nextKey?]
  simp only [if_neg (show ¬ max t.lastKey ((t.rows.getLast?.map Keyed.key).getD 0) <
    Cell.maxInteger from h)]
  rfl

theorem used_append {k : Int} {row : ρ} (rows : List ρ) (h : Keyed.key row = k) :
    (⟨rows ++ [row], k⟩ : Table ρ).used = k := by
  rw [used]
  simp [h]

end Table

inductive Kind
  | snapshot
  | host
  | process
  | port
  | cipher
  | file
  | key
deriving DecidableEq

def Tables.used (t : Tables) : Kind → Int
  | .snapshot => t.snapshots.used
  | .host => t.hosts.used
  | .process => t.processes.used
  | .port => t.ports.used
  | .cipher => t.ciphers.used
  | .file => t.files.used
  | .key => t.keys.used

abbrev Cost := Kind → Nat

namespace Cost

def none : Cost := fun _ => 0

def one (k : Kind) : Cost := fun j => if j = k then 1 else 0

def and (c d : Cost) : Cost := fun k => c k + d k

def sum {β : Type} (xs : List β) (cost : β → Cost) : Cost := xs.foldr (fun x => (cost x).and) none

end Cost

def Tables.Fits (t : Tables) (c : Cost) : Prop := ∀ k, 0 < c k → t.used k + c k ≤ Cell.maxInteger

theorem Tables.fits_and_iff {t t' : Tables} {c d : Cost} (h : ∀ k, t'.used k = t.used k + c k) :
    t.Fits (c.and d) ↔ t.Fits c ∧ t'.Fits d := by
  constructor
  · intro fits
    constructor
    · intro k hk
      have := fits k (by rw [Cost.and]; omega)
      rw [Cost.and] at this
      omega
    · intro k hk
      have := fits k (by rw [Cost.and]; omega)
      rw [Cost.and] at this
      rw [h]
      omega
  · rintro ⟨first, second⟩ k hk
    rw [Cost.and] at hk ⊢
    rcases Nat.eq_zero_or_pos (d k) with hd | hd
    · have := first k (by omega)
      omega
    · have := second k hd
      rw [h] at this
      omega

/-- A step that needs keys for as many rows as `c` says: with these it succeeds and uses them up,
and without them it fails for no other reason. -/
structure Meets {α : Type} (w : Write α) (t : Tables) (c : Cost) (post : α → Tables → Prop) :
    Prop where
  room : t.Fits c → ∃ a t', w t = .ok (a, t') ∧ (∀ k, t'.used k = t.used k + c k) ∧ post a t'
  full : ¬ t.Fits c → w t = .error .full

namespace Meets

variable {α β : Type} {w : Write α} {t : Tables} {c d : Cost} {post : α → Tables → Prop}

theorem pure {a : α} (h : post a t) : Meets (Pure.pure a) t Cost.none post where
  room _ := ⟨a, t, rfl, fun _ => (Int.add_zero _).symm, h⟩
  full unfit := absurd (fun _ hk => absurd hk (Nat.lt_irrefl 0)) unfit

theorem imp {post' : α → Tables → Prop} (h : Meets w t c post)
    (weaker : ∀ a t', post a t' → post' a t') : Meets w t c post' where
  room fits := by
    obtain ⟨a, t', run, used, hp⟩ := h.room fits
    exact ⟨a, t', run, used, weaker a t' hp⟩
  full := h.full

theorem bind {f : α → Write β} {post' : β → Tables → Prop} (h : Meets w t c post)
    (next : ∀ a t', (∀ k, t'.used k = t.used k + c k) → post a t' → Meets (f a) t' d post') :
    Meets (w >>= f) t (c.and d) post' where
  room fits := by
    have fits_first : t.Fits c := fun k hk => by
      have := fits k (by rw [Cost.and]; omega)
      rw [Cost.and] at this
      omega
    obtain ⟨a, t', run, used, hp⟩ := h.room fits_first
    obtain ⟨b, t'', run', used', hp'⟩ := (next a t' used hp).room ((Tables.fits_and_iff used).1 fits).2
    refine ⟨b, t'', ?_, ?_, hp'⟩
    · show (w t >>= fun p => f p.1 p.2) = _
      rw [run]
      exact run'
    · intro k
      rw [used', used, Cost.and]
      omega
  full unfit := by
    show (w t >>= fun p => f p.1 p.2) = _
    by_cases fits : t.Fits c
    · obtain ⟨a, t', run, used, hp⟩ := h.room fits
      have unfit' : ¬ t'.Fits d := fun fits' => unfit ((Tables.fits_and_iff used).2 ⟨fits, fits'⟩)
      rw [run]
      exact (next a t' used hp).full unfit'
    · rw [h.full fits]
      rfl

theorem of_run_eq {w' : Write α} {t' : Tables} (run : w t = w' t') (used : ∀ k, t'.used k = t.used k)
    (h : Meets w' t' c post) : Meets w t c post where
  room fits := by
    obtain ⟨a, t'', run', used', hp⟩ := h.room fun k hk => (used k).symm ▸ fits k hk
    exact ⟨a, t'', run.trans run', fun k => used k ▸ used' k, hp⟩
  full unfit := run.trans (h.full fun fits => unfit fun k hk => used k ▸ fits k hk)

theorem forM {xs : List β} {f : β → Write Unit} {cost : β → Cost} (inv : List β → Tables → Prop)
    (start : inv [] t)
    (step : ∀ done x t, x ∈ xs → inv done t → Meets (f x) t (cost x) fun _ t' => inv (done ++ [x]) t') :
    Meets (xs.forM f) t (Cost.sum xs cost) fun _ t' => inv xs t' := by
  suffices h : ∀ rest done t, done ++ rest = xs → inv done t →
      Meets (rest.forM f) t (Cost.sum rest cost) fun _ t' => inv xs t' from h xs [] t rfl start
  -- what is done grows along the loop, so the induction is on what is left
  intro rest
  induction rest with
  | nil =>
    intro done t hxs hi
    rw [List.append_nil] at hxs
    exact .pure (hxs ▸ hi)
  | cons x rest ih =>
    intro done t hxs hi
    have hx : x ∈ xs := by simp [← hxs]
    exact (step done x t hx hi).bind fun _ t' _ hi' => ih _ t' (by rw [← hxs]; simp) hi'

end Meets

end FleetPosture.Store

import FleetPosture.Json.Parser
import FleetPosture.Proofs.Json.Token

/-! Reading a compactly written value gives the value back: its text has the tokens of the value,
and these are put together again as they were. -/

namespace FleetPosture.Json

/-- Values that are written as themselves: their integers fit 64 bits, and there are no other
numerals. -/
inductive Plain : Json → Prop
  | null : Plain .null
  | bool (b : Bool) : Plain (.bool b)
  | integer {n : Int} (low : -9223372036854775808 ≤ n) (high : n ≤ Text.maxU64) : Plain (.integer n)
  | string (s : String) : Plain (.string s)
  | array {items : List Json} (plain : ∀ v ∈ items, Plain v) : Plain (.array items)
  | object {fields : List (String × Json)} (plain : ∀ f ∈ fields, Plain f.2) : Plain (.object fields)

mutual

def tokensOf : Json → List Token
  | .array items => .beginArray :: (itemTokens items ++ [.endArray])
  | .object fields => .beginObject :: (fieldTokens fields ++ [.endObject])
  | .string s => [.string (some s)]
  | v => [.scalar v]

def itemTokens : List Json → List Token
  | [] => []
  | v :: vs => tokensOf v ++ moreItems vs

def moreItems : List Json → List Token
  | [] => []
  | v :: vs => .comma :: (tokensOf v ++ moreItems vs)

def fieldTokens : List (String × Json) → List Token
  | [] => []
  | (k, v) :: fs => .string (some k) :: .colon :: (tokensOf v ++ moreFields fs)

def moreFields : List (String × Json) → List Token
  | [] => []
  | (k, v) :: fs => .comma :: .string (some k) :: .colon :: (tokensOf v ++ moreFields fs)

end

theorem tokensFrom_mark {c : Char} {t : Token} (h : opens c = some (some t, .between))
    (rest : List Char) : tokensFrom .between (c :: rest) = (tokensFrom .between rest).map (t :: ·) := by
  rw [tokensFrom, h]

theorem delimits_cons {c : Char} (h : isWordChar c = false) (rest : List Char) :
    Delimits (c :: rest) := by
  rintro _ ⟨⟩
  exact h

def Lexes (v : Json) : Prop := ∀ rest, Delimits rest →
  tokensFrom .between (compactChars v ++ rest) = (tokensFrom .between rest).map (tokensOf v ++ ·)

theorem tokensFrom_items {items : List Json} (lexes : ∀ v ∈ items, Lexes v) {rest : List Char}
    (hr : Delimits rest) :
    tokensFrom .between (compactItems items ++ rest) =
      (tokensFrom .between rest).map (itemTokens items ++ ·) := by
  induction items with
  | nil => simp [compactItems, itemTokens]
  | cons v vs ih =>
    obtain ⟨hv, hvs⟩ := List.forall_mem_cons.1 lexes
    cases vs with
    | nil =>
      rw [compactItems, hv rest hr, itemTokens, moreItems, List.append_nil]
    | cons w vs =>
      rw [compactItems, List.append_assoc, List.cons_append,
        hv _ (delimits_cons (by decide) _), tokensFrom_mark (t := .comma) rfl, ih hvs,
        Option.map_map, Option.map_map]
      simp [itemTokens, moreItems, Function.comp_def]

theorem tokensFrom_fields {fields : List (String × Json)} (lexes : ∀ f ∈ fields, Lexes f.2)
    {rest : List Char} (hr : Delimits rest) :
    tokensFrom .between (compactFields fields ++ rest) =
      (tokensFrom .between rest).map (fieldTokens fields ++ ·) := by
  induction fields with
  | nil => simp [compactFields, fieldTokens]
  | cons f fs ih =>
    obtain ⟨k, v⟩ := f
    obtain ⟨hv, hfs⟩ := List.forall_mem_cons.1 lexes
    cases fs with
    | nil =>
      rw [compactFields, List.append_assoc, List.cons_append, tokensFrom_stringChars,
        tokensFrom_mark (t := .colon) rfl, hv rest hr]
      simp [fieldTokens, moreFields, Function.comp_def]
    | cons g fs =>
      rw [compactFields, List.append_assoc, List.cons_append, List.append_assoc, List.cons_append,
        tokensFrom_stringChars, tokensFrom_mark (t := .colon) rfl,
        hv _ (delimits_cons (by decide) _), tokensFrom_mark (t := .comma) rfl, ih hfs]
      simp [fieldTokens, moreFields, Function.comp_def]

theorem Plain.lexes {v : Json} (plain : Plain v) : Lexes v := by
  induction plain with
  | null =>
    intro rest hr
    exact tokensFrom_scalar (v := .null) rfl (List.all_eq_true.1 rfl) (by decide) hr
  | bool b =>
    intro rest hr
    cases b with
    | false => exact tokensFrom_scalar (v := .bool false) rfl (List.all_eq_true.1 rfl) (by decide) hr
    | true => exact tokensFrom_scalar (v := .bool true) rfl (List.all_eq_true.1 rfl) (by decide) hr
  | integer low high =>
    intro rest hr
    exact tokensFrom_scalar (scalar?_integerChars low high)
      (fun _ hc => isWordChar_of_mem_integerChars hc) (integerChars_ne_nil _) hr
  | string s => exact fun rest _ => tokensFrom_stringChars s rest
  | array _ ih =>
    intro rest hr
    rw [compactChars, List.cons_append, List.cons_append, List.append_assoc, List.singleton_append,
      tokensFrom_mark (t := .beginArray) rfl, tokensFrom_items ih (delimits_cons (by decide) _),
      tokensFrom_mark (t := .endArray) rfl]
    simp [tokensOf, Function.comp_def]
  | object _ ih =>
    intro rest hr
    rw [compactChars, List.cons_append, List.cons_append, List.append_assoc, List.singleton_append,
      tokensFrom_mark (t := .beginObject) rfl, tokensFrom_fields ih (delimits_cons (by decide) _),
      tokensFrom_mark (t := .endObject) rfl]
    simp [tokensOf, Function.comp_def]

/-- The tokens of a value are put together to the value, wherever it stands. -/
def Assembles (v : Json) : Prop :=
  ∀ fs ts, readTokens none fs (tokensOf v ++ ts) = readTokens (some v) fs ts

theorem tokensOf_ne_endArray (v : Json) (ts r : List Token) : tokensOf v ++ ts ≠ .endArray :: r := by
  cases v <;> simp [tokensOf]

section Steps

variable {v : Json} {k : String} {items : List Json} {members : List (String × Json)}
  {fs : List Frame} {ts : List Token}

theorem readTokens_beginArray (h : ∀ r, ts ≠ .endArray :: r) :
    readTokens none fs (.beginArray :: ts) = readTokens none (.array [] :: fs) ts := by
  cases ts with
  | nil => rfl
  | cons t r =>
    cases t with
    | endArray => exact absurd rfl (h r)
    | _ => rfl

theorem readTokens_nextItem :
    readTokens (some v) (.array items :: fs) (.comma :: ts) =
      readTokens none (.array (v :: items) :: fs) ts := rfl

theorem readTokens_endArray :
    readTokens (some v) (.array items :: fs) (.endArray :: ts) =
      readTokens (some (.array (v :: items).reverse)) fs ts := rfl

theorem readTokens_nextMember {next : Option String} :
    readTokens (some v) (.object members true (some k) :: fs)
        (.comma :: .string next :: .colon :: ts) =
      readTokens none (.object ((k, v) :: members) true next :: fs) ts := rfl

theorem readTokens_endObject :
    readTokens (some v) (.object members true (some k) :: fs) (.endObject :: ts) =
      readTokens (some (.object ((k, v) :: members).reverse)) fs ts := rfl

end Steps

theorem readTokens_items {v : Json} {vs : List Json} (assembles : ∀ w ∈ v :: vs, Assembles w)
    (acc : List Json) (fs : List Frame) (ts : List Token) :
    readTokens none (.array acc :: fs) (itemTokens (v :: vs) ++ .endArray :: ts) =
      readTokens (some (.array (acc.reverse ++ v :: vs))) fs ts := by
  induction vs generalizing v acc with
  | nil =>
    rw [itemTokens, moreItems, List.append_nil, assembles v List.mem_cons_self,
      readTokens_endArray, List.reverse_cons]
  | cons w vs ih =>
    obtain ⟨hv, hws⟩ := List.forall_mem_cons.1 assembles
    rw [itemTokens, List.append_assoc, hv, moreItems, List.cons_append, readTokens_nextItem]
    refine (ih hws (v :: acc)).trans ?_
    rw [List.reverse_cons, List.append_assoc, List.singleton_append]

theorem readTokens_fields {k : String} {v : Json} {more : List (String × Json)}
    (assembles : ∀ f ∈ (k, v) :: more, Assembles f.2) (acc : List (String × Json))
    (fs : List Frame) (ts : List Token) :
    readTokens none (.object acc true (some k) :: fs)
        (tokensOf v ++ moreFields more ++ .endObject :: ts) =
      readTokens (some (.object (acc.reverse ++ (k, v) :: more))) fs ts := by
  induction more generalizing k v acc with
  | nil =>
    rw [moreFields, List.append_nil, assembles (k, v) List.mem_cons_self, readTokens_endObject,
      List.reverse_cons]
  | cons f more ih =>
    obtain ⟨k', v'⟩ := f
    obtain ⟨hv, hmore⟩ := List.forall_mem_cons.1 assembles
    rw [List.append_assoc, hv, moreFields, List.cons_append, List.cons_append, List.cons_append,
      readTokens_nextMember]
    refine (ih hmore ((k, v) :: acc)).trans ?_
    rw [List.reverse_cons, List.append_assoc, List.singleton_append]

theorem Plain.assembles {v : Json} (plain : Plain v) : Assembles v := by
  induction plain with
  | null => exact fun _ _ => rfl
  | bool b => exact fun _ _ => rfl
  | integer low high => exact fun _ _ => rfl
  | string s => exact fun _ _ => rfl
  | @array items _ ih =>
    intro fs ts
    rw [tokensOf, List.cons_append, List.append_assoc]
    cases items with
    | nil => rfl
    | cons v vs =>
      -- an array is taken for empty only before a closing bracket, with which no value begins
      rw [readTokens_beginArray fun r => by
        rw [itemTokens, List.append_assoc]
        exact tokensOf_ne_endArray v _ r]
      exact readTokens_items ih [] fs ts
  | @object fields _ ih =>
    intro fs ts
    rw [tokensOf, List.cons_append, List.append_assoc]
    cases fields with
    | nil => rfl
    | cons f more =>
      obtain ⟨k, v⟩ := f
      rw [fieldTokens, List.cons_append, List.cons_append]
      exact readTokens_fields ih [] fs ts

theorem parse?_compact {v : Json} (plain : Plain v) : parse? v.compact = some v := by
  have tokens : tokens? v.compact.toList = some (tokensOf v) := by
    have lexed := plain.lexes [] (by rintro _ ⟨⟩)
    have ended : tokensFrom .between [] = some [] := rfl
    rw [List.append_nil, ended, Option.map_some, List.append_nil] at lexed
    rw [compact, String.toList_ofList]
    exact lexed
  have assembled := plain.assembles [] []
  rw [List.append_nil] at assembled
  rw [parse?, tokens]
  exact assembled

end FleetPosture.Json

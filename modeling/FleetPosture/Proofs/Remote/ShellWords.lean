import FleetPosture.Remote.Launch
import FleetPosture.Text.Pieces

/-! How a POSIX shell reads the words of a simple command. Quotes and backslashes take their meaning from
characters and are removed; blanks outside them separate words. What a shell would replace by something
else, or would end the command at, is refused, so that words that are read are the arguments of the
program. A text with NUL in it is never handed to a shell; here NUL is a character like any other. Nor
is there anything special to a first word that is reserved or sets a variable. -/

namespace FleetPosture.Shell

inductive Token
  | word (text : List Char)
  | output (stream : List Char)
deriving DecidableEq, Repr

structure Begun where
  text : List Char
  isQuoted : Bool
deriving DecidableEq, Repr

inductive Mode
  | plain
  | escaped
  | redirected
  | single
  | double
  | doubleEscaped
deriving DecidableEq, Repr

structure Place where
  word : Option Begun
  mode : Mode
deriving DecidableEq, Repr

namespace Place

def between : Place := ⟨none, .plain⟩

def begun (p : Place) : Begun := p.word.getD ⟨[], false⟩

def quoted (p : Place) (mode : Mode) : Place := ⟨some { p.begun with isQuoted := true }, mode⟩

def add (p : Place) (c : Char) : Place :=
  { p with word := some { p.begun with text := p.begun.text ++ [c] } }

def tokens (p : Place) : List Token := (p.word.map fun w => Token.word w.text).toList

def isDigits (s : List Char) : Bool := !s.isEmpty && s.all Char.isDigit

def redirection (p : Place) : List Token :=
  match p.word with
  | none => [.output []]
  | some w => if !w.isQuoted && isDigits w.text then [.output w.text] else [.word w.text, .output []]

end Place

def isSpace (c : Char) : Bool := c == ' ' || c == '\t'

/-- Ends the command, or is replaced by what is no part of the text. -/
def isActive (c : Char) : Bool := c ∈ "\n|&;<()$`*?[".toList

def isActiveFirst (c : Char) : Bool := c == '#' || c == '~'

def stepPlain (p : Place) (c : Char) : Option (List Token × Place) :=
  if isSpace c then some (p.tokens, .between)
  else if c = '\'' then some ([], p.quoted .single)
  else if c = '"' then some ([], p.quoted .double)
  else if c = '\\' then some ([], { p with mode := .escaped })
  else if c = '>' then some (p.redirection, ⟨none, .redirected⟩)
  else if isActive c || (p.word.isNone && isActiveFirst c) then none
  else some ([], { p.add c with mode := .plain })

def step (p : Place) (c : Char) : Option (List Token × Place) :=
  match p.mode with
  | .plain => stepPlain p c
  | .redirected => if c = '>' then none else stepPlain p c
  | .escaped =>
    if c = '\n' then some ([], { p with mode := .plain }) else some ([], (p.quoted .plain).add c)
  | .single => if c = '\'' then some ([], { p with mode := .plain }) else some ([], p.add c)
  | .double =>
    if c = '"' then some ([], { p with mode := .plain })
    else if c = '\\' then some ([], { p with mode := .doubleEscaped })
    else if c = '$' ∨ c = '`' then none
    else some ([], p.add c)
  | .doubleEscaped =>
    if c = '\n' then some ([], { p with mode := .double })
    else if c ∈ "$`\"\\".toList then some ([], { p.add c with mode := .double })
    else some ([], { (p.add '\\').add c with mode := .double })

/-- The tokens of the rest of a command; none if it is not complete. -/
def tokensFrom? : Place → List Char → Option (List Token)
  | p, [] => if p.mode = .plain then some p.tokens else none
  | p, c :: cs => (step p c).bind fun r => (tokensFrom? r.2 cs).map (r.1 ++ ·)

def tokens? (s : List Char) : Option (List Token) := tokensFrom? .between s

structure Command where
  arguments : List String
  outputs : List (String × String)
deriving DecidableEq, Repr

def Command.ofTokens? : List Token → Option Command
  | [] => some ⟨[], []⟩
  | .word w :: ts => (ofTokens? ts).map fun c => { c with arguments := String.ofList w :: c.arguments }
  | .output stream :: .word file :: ts =>
    (ofTokens? ts).map fun c =>
      { c with outputs := (String.ofList stream, String.ofList file) :: c.outputs }
  | .output _ :: _ => none

def command? (s : String) : Option Command := (tokens? s.toList).bind Command.ofTokens?

theorem tokensFrom?_append {p : Place} {before : List Char} {ts : List Token}
    (h : tokensFrom? p before = some ts) {b : Char} (hb : isSpace b) (after : List Char) :
    tokensFrom? p (before ++ b :: after) = (tokens? after).map (ts ++ ·) := by
  induction before generalizing p ts with
  | nil =>
    simp only [tokensFrom?, Option.ite_none_right_eq_some, Option.some.injEq] at h
    obtain ⟨hmode, rfl⟩ := h
    -- at the end of complete words the mode is `plain`, so the blank does not belong to a word
    have hstep : step p b = some (p.tokens, .between) := by
      simp only [step, hmode, stepPlain, hb, if_true]
    simp only [List.nil_append, tokensFrom?, hstep, Option.bind_some, tokens?]
  | cons c cs ih =>
    simp only [tokensFrom?, Option.bind_eq_some_iff, Option.map_eq_some_iff] at h
    obtain ⟨⟨ended, next⟩, hstep, later, hlater, rfl⟩ := h
    simp only [List.cons_append, tokensFrom?, hstep, Option.bind_some, ih hlater, Option.map_map]
    congr 1
    funext us
    exact (List.append_assoc ..).symm

theorem tokens?_append {before : List Char} {ts : List Token} (h : tokens? before = some ts)
    {b : Char} (hb : isSpace b) (after : List Char) :
    tokens? (before ++ b :: after) = (tokens? after).map (ts ++ ·) :=
  tokensFrom?_append h hb after

theorem tokensFrom?_cons {p next : Place} {c : Char} (h : step p c = some ([], next))
    (cs : List Char) : tokensFrom? p (c :: cs) = tokensFrom? next cs := by
  simp only [tokensFrom?, h, Option.bind_some, List.nil_append]
  exact Option.map_id' ..

theorem tokensFrom?_flatMap_quotedChar (text s rest : List Char) :
    tokensFrom? ⟨some ⟨text, true⟩, .single⟩ (s.flatMap Remote.quotedChar ++ '\'' :: rest) =
      tokensFrom? ⟨some ⟨text ++ s, true⟩, .plain⟩ rest := by
  have closed (text : List Char) :
      step ⟨some ⟨text, true⟩, .single⟩ '\'' = some ([], ⟨some ⟨text, true⟩, .plain⟩) := rfl
  induction s generalizing text with
  | nil => rw [List.flatMap_nil, List.nil_append, List.append_nil, tokensFrom?_cons (closed text)]
  | cons c cs ih =>
    rw [List.append_cons text c cs, ← ih, List.flatMap_cons, List.append_assoc]
    by_cases hc : c = '\''
    · -- a quote of the text: out of the quotes, past an escaped one, and into the quotes again
      subst hc
      have escaped : step ⟨some ⟨text, true⟩, .plain⟩ '\\' =
          some ([], ⟨some ⟨text, true⟩, .escaped⟩) := rfl
      have taken : step ⟨some ⟨text, true⟩, .escaped⟩ '\'' =
          some ([], ⟨some ⟨text ++ ['\''], true⟩, .plain⟩) := rfl
      have opened (text : List Char) : step ⟨some ⟨text, true⟩, .plain⟩ '\'' =
          some ([], ⟨some ⟨text, true⟩, .single⟩) := rfl
      have spelled : Remote.quotedChar '\'' = ['\'', '\\', '\'', '\''] := rfl
      simp only [spelled, List.cons_append, List.nil_append]
      rw [tokensFrom?_cons (closed text), tokensFrom?_cons escaped, tokensFrom?_cons taken,
        tokensFrom?_cons (opened _)]
    · have taken : step ⟨some ⟨text, true⟩, .single⟩ c =
          some ([], ⟨some ⟨text ++ [c], true⟩, .single⟩) := if_neg hc
      rw [Remote.quotedChar, if_neg hc, List.singleton_append, tokensFrom?_cons taken]

inductive Leads : List Char → List Token → Prop
  | nothing : Leads [] []
  | words {s ts b} (read : tokens? s = some ts) (blank : isSpace b) : Leads (s ++ [b]) ts

inductive Follows : List Char → List Token → Prop
  | nothing : Follows [] []
  | words {b s ts} (blank : isSpace b) (read : tokens? s = some ts) : Follows (b :: s) ts

theorem Leads.tokens?_append {before after : List Char} {ts us : List Token}
    (h : Leads before ts) (hafter : tokens? after = some us) :
    tokens? (before ++ after) = some (ts ++ us) := by
  cases h with
  | nothing => exact hafter
  | words read blank =>
    rw [List.append_assoc, List.singleton_append, Shell.tokens?_append read blank, hafter]
    rfl

theorem Follows.tokensFrom?_eq {after : List Char} {us : List Token} (h : Follows after us)
    (w : Begun) : tokensFrom? ⟨some w, .plain⟩ after = some (.word w.text :: us) := by
  have hword : tokensFrom? ⟨some w, .plain⟩ [] = some [.word w.text] := rfl
  cases h with
  | nothing => exact hword
  | words blank read =>
    rw [← List.nil_append (_ :: _), tokensFrom?_append hword blank, read]
    rfl

theorem Leads.tokens?_shellQuoted {before after : List Char} {ts us : List Token}
    (hbefore : Leads before ts) (hafter : Follows after us) (s : String) :
    tokens? (before ++ (Remote.shellQuoted s).toList ++ after) =
      some (ts ++ .word s.toList :: us) := by
  rw [List.append_assoc]
  apply hbefore.tokens?_append
  have hopened : step .between '\'' = some ([], ⟨some ⟨[], true⟩, .single⟩) := rfl
  have hquoted : (Remote.shellQuoted s).toList ++ after =
      '\'' :: (s.toList.flatMap Remote.quotedChar ++ '\'' :: after) := by
    simp [Remote.shellQuoted]
  rw [hquoted, tokens?, tokensFrom?_cons hopened, tokensFrom?_flatMap_quotedChar,
    hafter.tokensFrom?_eq]
  rfl

def words (ws : List String) : List Token := ws.map fun w => .word w.toList

theorem ofTokens?_words_append (ws : List String) (ts : List Token) :
    Command.ofTokens? (words ws ++ ts) =
      (Command.ofTokens? ts).map fun c => { c with arguments := ws ++ c.arguments } := by
  induction ws with
  | nil => simp [words]
  | cons w ws ih =>
    have hcons : words (w :: ws) ++ ts = .word w.toList :: (words ws ++ ts) := rfl
    rw [hcons, Command.ofTokens?, ih, Option.map_map, String.ofList_toList]
    rfl

theorem command?_of_words {s : String} {ws : List String} (h : tokens? s.toList = some (words ws)) :
    command? s = some ⟨ws, []⟩ := by
  have hall : Command.ofTokens? (words ws) = some ⟨ws, []⟩ := by
    simpa [Command.ofTokens?] using ofTokens?_words_append ws []
  rw [command?, h, Option.bind_some, hall]

end FleetPosture.Shell

import Mathlib.Data.List.Basic

/-!
# Reading JSON5 texts: tokens

A part of JSON5: line comments, names, strings in double quotes and the six
punctuators.  The reader is partial.  It stops at the first symbol of any other kind,
so what it reads is JSON5, and of a text it cannot read it still returns the tokens up
to there.

The reader is stated over an alphabet of symbols, so that it can read a template as it
reads a text.  A symbol is a character, a hole for the inside of a string or a hole for
a whole value; any other symbol cannot be read.  `lex_fill` says that reading commutes with filling the holes: a
template is read once, and every text it renders to is read with it.
-/

namespace Json5

open List

/-! ## The reader -/

/-- What a symbol is. -/
inductive Kind where
  | char (c : Char)
  | text
  | value
  | other
deriving DecidableEq

/-- The punctuators. -/
inductive Punct where
  | lbrace
  | rbrace
  | lbracket
  | rbracket
  | colon
  | comma
deriving DecidableEq

/-- The punctuator a character is. -/
def Punct.ofChar (c : Char) : Option Punct :=
  if c = '{' then some .lbrace
  else if c = '}' then some .rbrace
  else if c = '[' then some .lbracket
  else if c = ']' then some .rbracket
  else if c = ':' then some .colon
  else if c = ',' then some .comma
  else none

/-- A token.  Strings are kept as symbols, and a hole for a value is a token. -/
inductive Token (α : Type) where
  | punct (p : Punct)
  | str (s : List α)
  | word (w : List Char)
  | hole (a : α)
deriving DecidableEq

/-- What the reader is in the middle of. -/
inductive Mode (α : Type) where
  | plain
  | slash
  | comment
  | str (s : List α)
  | escape (s : List α)
  | word (w : List Char)
  | after (a : α)
deriving DecidableEq

/-- A line terminator of JSON5. -/
def lineEnd (c : Char) : Bool :=
  c == '\n' || c == '\r' || c.toNat == 0x2028 || c.toNat == 0x2029

/-- A character that stands for itself in a string. -/
def stringChar (c : Char) : Bool := c != '"' && c != '\\' && !lineEnd c

def wordStart (c : Char) : Bool := c.isAlpha || c == '_' || c == '$'

def wordChar (c : Char) : Bool := wordStart c || c.isDigit

section Lexer

variable {α : Type} (kind : α → Kind) (lift : Char → α)

/-- The first character of a token. -/
def plainChar (α : Type) (c : Char) : Option (List (Token α) × Mode α) :=
  match Punct.ofChar c with
  | some p => some ([.punct p], .plain)
  | none =>
    if c = ' ' ∨ c = '\n' ∨ c = '\t' then some ([], .plain)
    else if c = '"' then some ([], .str [])
    else if c = '/' then some ([], .slash)
    else if wordStart c then some ([], .word [c])
    else none

/-- One symbol.  A hole for a value stands alone before a comma. -/
def step (m : Mode α) (a : α) : Option (List (Token α) × Mode α) :=
  match m, kind a with
  | .plain, .char c => plainChar α c
  | .plain, .value => some ([], .after a)
  | .slash, .char c => if c = '/' then some ([], .comment) else none
  | .comment, .char c =>
    if c = '\n' then some ([], .plain)
    else if lineEnd c then none
    else some ([], .comment)
  | .comment, .text => some ([], .comment)
  | .comment, .value => some ([], .comment)
  | .str s, .char c =>
    if c = '"' then some ([.str s], .plain)
    else if c = '\\' then some ([], .escape s)
    else if lineEnd c then none
    else some ([], .str (s ++ [a]))
  | .str s, .text => some ([], .str (s ++ [a]))
  | .escape s, .char c =>
    if c = 'n' then some ([], .str (s ++ [lift '\n']))
    else if c = '"' ∨ c = '\\' then some ([], .str (s ++ [a]))
    else none
  | .word w, .char c =>
    if wordChar c then some ([], .word (w ++ [c]))
    else (plainChar α c).map fun r => (.word w :: r.1, r.2)
  | .after b, .char c =>
    if c = ',' ∧ kind b = .value then some ([.hole b, .punct .comma], .plain) else none
  | _, _ => none

/-- The tokens of a text, and the mode at its end when all of it was read. -/
def lex : Mode α → List α → List (Token α) × Option (Mode α)
  | m, [] => ([], some m)
  | m, a :: as =>
    match step kind lift m a with
    | none => ([], none)
    | some (ts, m') => (ts ++ (lex m' as).1, (lex m' as).2)

end Lexer

/-- The reader of texts. -/
abbrev lexText : Mode Char → List Char → List (Token Char) × Option (Mode Char) :=
  lex Kind.char id

theorem lexText_cons {m m' : Mode Char} {c : Char} {ts : List (Token Char)}
    (h : step Kind.char id m c = some (ts, m')) (cs : List Char) :
    lexText m (c :: cs) = (ts ++ (lexText m' cs).1, (lexText m' cs).2) := by
  rw [lexText, lex, h]

/-- Reading goes on where the first part of a text ends. -/
theorem lexText_append {cs : List Char} : ∀ {as : List Char} {m m' : Mode Char}
    {ts : List (Token Char)}, lexText m as = (ts, some m') →
      lexText m (as ++ cs) = (ts ++ (lexText m' cs).1, (lexText m' cs).2)
  | [], m, m', ts, h => by
    cases h
    rfl
  | a :: as, m, m', ts, h => by
    rw [lexText, lex] at h
    split at h
    · cases h
    next ts₁ m₁ hstep =>
      obtain ⟨hts, hm⟩ := Prod.mk.inj h
      have hrest : lexText m₁ as = ((lexText m₁ as).1, some m') := Prod.ext rfl hm
      rw [cons_append, lexText_cons hstep, lexText_append hrest, ← hts, append_assoc]

/-- A comment goes on over a text without a line terminator. -/
theorem lexText_comment {v : List Char} (hv : ∀ c ∈ v, lineEnd c = false) (cs : List Char) :
    lexText .comment (v ++ cs) = lexText .comment cs := by
  induction v with
  | nil => rfl
  | cons c v ih =>
    have hc := hv c mem_cons_self
    have hne : c ≠ '\n' := by
      rintro rfl
      exact absurd hc (by decide)
    have hstep : step Kind.char id .comment c = some ([], .comment) := by
      simp [step, hne, hc]
    rw [cons_append, lexText_cons hstep, ih fun d hd => hv d (.tail _ hd)]
    rfl

/-- A string takes in a text of characters that stand for themselves. -/
theorem lexText_str {v : List Char} (hv : ∀ c ∈ v, stringChar c = true) (s cs : List Char) :
    lexText (.str s) (v ++ cs) = lexText (.str (s ++ v)) cs := by
  induction v generalizing s with
  | nil => rw [nil_append, append_nil]
  | cons c v ih =>
    have hc := hv c mem_cons_self
    simp only [stringChar, Bool.and_eq_true, bne_iff_ne, ne_eq, Bool.not_eq_true'] at hc
    have hstep : step Kind.char id (.str s) c = some ([], .str (s ++ [c])) := by
      simp [step, hc.1.1, hc.1.2, hc.2]
    rw [cons_append, lexText_cons hstep,
      ih (fun d hd => hv d (.tail _ hd)) (s ++ [c]), append_assoc]
    rfl

/-! ## Filling holes -/

section Fill

variable {α : Type} (kind : α → Kind) (lift : Char → α)

/-- The texts `σ` for the symbols, and the tokens `τ` of the texts for whole values.  A text
inside a string stands for itself, and no text ends a comment. -/
structure Filling (σ : α → List Char) (τ : α → List (Token Char)) : Prop where
  char : ∀ a c, kind a = .char c → σ a = [c]
  lift : ∀ c, σ (lift c) = [c]
  text : ∀ a, kind a = .text → ∀ c ∈ σ a, stringChar c = true
  value : ∀ a, kind a = .value → (∀ c ∈ σ a, lineEnd c = false) ∧
    lexText .plain (σ a ++ [',']) = (τ a ++ [.punct .comma], some .plain)

variable (σ : α → List Char) (τ : α → List (Token Char))

/-- The tokens of a filled token. -/
def Token.fill : Token α → List (Token Char)
  | .punct p => [.punct p]
  | .str s => [.str (s.flatMap σ)]
  | .word w => [.word w]
  | .hole a => τ a

/-- The mode of the text reader.  A value is read when the comma after it comes. -/
def Mode.fill : Mode α → Mode Char
  | .plain => .plain
  | .slash => .slash
  | .comment => .comment
  | .str s => .str (s.flatMap σ)
  | .escape s => .escape (s.flatMap σ)
  | .word w => .word w
  | .after _ => .plain

/-- The text of a value that is not read yet. -/
def Mode.pending : Mode α → List Char
  | .after a => σ a
  | _ => []

variable {kind lift σ τ}

theorem plainChar_fill {c : Char} {ts : List (Token α)} {m : Mode α}
    (h : plainChar α c = some (ts, m)) :
    plainChar Char c = some (ts.flatMap (Token.fill σ τ), m.fill σ) ∧ m.pending σ = [] := by
  rw [plainChar] at h ⊢
  cases hpunct : Punct.ofChar c with
  | some p =>
    rw [hpunct] at h
    cases h
    exact ⟨rfl, rfl⟩
  | none =>
    rw [hpunct] at h
    dsimp only at h ⊢
    split_ifs at h ⊢
    all_goals
      cases h
      exact ⟨rfl, rfl⟩

/-- One symbol of a template is read as the text it is filled with. -/
theorem step_fill (h : Filling kind lift σ τ) {m m' : Mode α} {a : α} {ts : List (Token α)}
    (hstep : step kind lift m a = some (ts, m')) (cs : List Char) :
    lexText (m.fill σ) (m.pending σ ++ (σ a ++ cs)) =
      (ts.flatMap (Token.fill σ τ) ++ (lexText (m'.fill σ) (m'.pending σ ++ cs)).1,
        (lexText (m'.fill σ) (m'.pending σ ++ cs)).2) := by
  rw [step.eq_def] at hstep
  split at hstep
  next c hkind =>
    obtain ⟨hplain, hpend⟩ := plainChar_fill (σ := σ) (τ := τ) hstep
    rw [h.char a c hkind, hpend]
    exact lexText_cons (by simpa only [Mode.fill, step] using hplain) cs
  next hkind =>
    cases hstep
    rfl
  next c hkind =>
    split_ifs at hstep with hc
    cases hstep
    rw [h.char a c hkind]
    exact lexText_cons (by simp [Mode.fill, step, hc]) cs
  next c hkind =>
    rw [h.char a c hkind]
    split_ifs at hstep with hnl hend
    · cases hstep
      exact lexText_cons (by simp [Mode.fill, step, hnl]) cs
    · cases hstep
      exact lexText_cons (by simp [Mode.fill, step, hnl, hend]) cs
  next hkind =>
    cases hstep
    refine lexText_comment (fun c hc => ?_) cs
    have hsafe := h.text a hkind c hc
    simp only [stringChar, Bool.and_eq_true, Bool.not_eq_true'] at hsafe
    exact hsafe.2
  next hkind =>
    cases hstep
    exact lexText_comment (h.value a hkind).1 cs
  next s c hkind =>
    rw [h.char a c hkind]
    split_ifs at hstep with hquote hback hend
    · cases hstep
      exact lexText_cons (by simp [Mode.fill, step, hquote, Token.fill]) cs
    · cases hstep
      exact lexText_cons (by simp [Mode.fill, step, hback]) cs
    · cases hstep
      refine lexText_cons ?_ cs
      simp [Mode.fill, step, hquote, hback, hend, h.char a c hkind]
  next s hkind =>
    cases hstep
    rw [Mode.fill, Mode.fill, flatMap_append, flatMap_singleton]
    exact lexText_str (h.text a hkind) _ cs
  next s c hkind =>
    rw [h.char a c hkind]
    split_ifs at hstep with hn hquote
    · cases hstep
      exact lexText_cons (by simp [Mode.fill, step, hn, h.lift]) cs
    · cases hstep
      refine lexText_cons ?_ cs
      simp [Mode.fill, step, hn, hquote, h.char a c hkind]
  next w c hkind =>
    rw [h.char a c hkind]
    split_ifs at hstep with hword
    · cases hstep
      exact lexText_cons (by simp [Mode.fill, step, hword]) cs
    · obtain ⟨⟨ts₁, m₁⟩, hplain, heq⟩ := Option.map_eq_some_iff.mp hstep
      obtain ⟨hplain', hpend⟩ := plainChar_fill (σ := σ) (τ := τ) hplain
      cases heq
      rw [hpend]
      exact lexText_cons (by simp [Mode.fill, step, hword, hplain', Token.fill]) cs
  next b c hkind =>
    split_ifs at hstep with hcomma
    cases hstep
    have hvalue := (h.value b hcomma.2).2
    have happ := @lexText_append cs _ _ _ _ hvalue
    rw [append_assoc] at happ
    rw [h.char a c hkind, hcomma.1]
    exact happ
  · cases hstep

/-- A filled template is read as the template is. -/
theorem lex_fill (h : Filling kind lift σ τ) : ∀ {as : List α} {m m' : Mode α}
    {ts : List (Token α)}, lex kind lift m as = (ts, some m') →
      lexText (m.fill σ) (m.pending σ ++ as.flatMap σ) =
        (ts.flatMap (Token.fill σ τ) ++ (lexText (m'.fill σ) (m'.pending σ)).1,
          (lexText (m'.fill σ) (m'.pending σ)).2)
  | [], m, m', ts, hlex => by
    cases hlex
    rw [List.flatMap_nil, List.append_nil]
    rfl
  | a :: as, m, m', ts, hlex => by
    rw [lex] at hlex
    split at hlex
    · cases hlex
    next ts₁ m₁ hstep =>
      obtain ⟨hts, hm⟩ := Prod.mk.inj hlex
      have hrest : lex kind lift m₁ as = ((lex kind lift m₁ as).1, some m') := Prod.ext rfl hm
      rw [flatMap_cons, step_fill h hstep, lex_fill h hrest, ← hts, flatMap_append,
        append_assoc]

end Fill

end Json5

import Efdi.Base.Json5Lex
import Efdi.Base.PyJson

/-!
# Reading JSON5 texts: values

A syntax tree says how a value is spelled: which lists and objects end in a comma.
Its tokens determine its value, and `parseValue_tokens` shows that the reader finds it.

`Library` is the interface of a JSON5 library, and `Library.Lawful` states what is
relied on: a text that spells a tree is read as its value, a text that begins with a
name that is no literal is refused, and a list of plain strings is written in the usual
way.  `reader` is a library that is lawful.
-/

namespace Json5

open List

/-! ## Syntax trees -/

/-- A syntax tree over an alphabet.  `comma` says that a comma ends the list or object. -/
inductive Tree (α : Type) where
  | str (s : List α)
  | bool (b : Bool)
  | hole (a : α)
  | list (items : List (Tree α)) (comma : Bool)
  | dict (members : List (List Char × Tree α)) (comma : Bool)

namespace Tree

variable {α : Type}

/-- The comma after an item of a list or object. -/
def separator {β : Type} (rest : List β) (comma : Bool) : List (Token α) :=
  if rest.isEmpty && !comma then [] else [.punct .comma]

mutual

/-- The tokens that spell a tree. -/
def tokens : Tree α → List (Token α)
  | .str s => [.str s]
  | .bool b => [.word (if b then ['t', 'r', 'u', 'e'] else ['f', 'a', 'l', 's', 'e'])]
  | .hole a => [.hole a]
  | .list items comma => .punct .lbracket :: (itemTokens comma items ++ [.punct .rbracket])
  | .dict members comma => .punct .lbrace :: (memberTokens comma members ++ [.punct .rbrace])

def itemTokens (comma : Bool) : List (Tree α) → List (Token α)
  | [] => []
  | t :: ts => t.tokens ++ (separator ts comma ++ itemTokens comma ts)

def memberTokens (comma : Bool) : List (List Char × Tree α) → List (Token α)
  | [] => []
  | (k, t) :: ts =>
    .word k :: .punct .colon :: (t.tokens ++ (separator ts comma ++ memberTokens comma ts))

end

mutual

/-- The keys of every object of a tree are distinct. -/
def distinct : Tree α → Bool
  | .list items _ => distinctItems items
  | .dict members _ => decide (members.map Prod.fst).Nodup && distinctMembers members
  | _ => true

def distinctItems : List (Tree α) → Bool
  | [] => true
  | t :: ts => t.distinct && distinctItems ts

def distinctMembers : List (List Char × Tree α) → Bool
  | [] => true
  | (_, t) :: ts => t.distinct && distinctMembers ts

end

mutual

/-- The value that a tree spells.  The tree of a text has no holes. -/
def value : Tree Char → PyJson
  | .str s => .str (String.ofList s)
  | .bool b => .bool b
  | .hole _ => .null
  | .list items _ => .list (itemValues items)
  | .dict members _ => .dict (memberValues members)

def itemValues : List (Tree Char) → List PyJson
  | [] => []
  | t :: ts => t.value :: itemValues ts

def memberValues : List (List Char × Tree Char) → List (String × PyJson)
  | [] => []
  | (k, t) :: ts => (String.ofList k, t.value) :: memberValues ts

end

/-! ## Filling a tree -/

section Fill

variable (σ : α → List Char) (θ : α → Tree Char)

mutual

/-- A tree with its holes filled. -/
def fill : Tree α → Tree Char
  | .str s => .str (s.flatMap σ)
  | .bool b => .bool b
  | .hole a => θ a
  | .list items comma => .list (fillItems items) comma
  | .dict members comma => .dict (fillMembers members) comma

def fillItems : List (Tree α) → List (Tree Char)
  | [] => []
  | t :: ts => t.fill :: fillItems ts

def fillMembers : List (List Char × Tree α) → List (List Char × Tree Char)
  | [] => []
  | (k, t) :: ts => (k, t.fill) :: fillMembers ts

end

variable {σ θ}

theorem separator_fillItems (ts : List (Tree α)) (comma : Bool) :
    (separator ts comma : List (Token α)).flatMap (Token.fill σ fun a => (θ a).tokens) =
      separator (fillItems σ θ ts) comma := by
  cases ts with
  | nil => cases comma <;> rfl
  | cons t ts => rfl

theorem separator_fillMembers (ts : List (List Char × Tree α)) (comma : Bool) :
    (separator ts comma : List (Token α)).flatMap (Token.fill σ fun a => (θ a).tokens) =
      separator (fillMembers σ θ ts) comma := by
  cases ts with
  | nil => cases comma <;> rfl
  | cons t ts => rfl

mutual

/-- The tokens of a filled tree are the filled tokens. -/
theorem tokens_fill : ∀ t : Tree α,
    (t.fill σ θ).tokens = t.tokens.flatMap (Token.fill σ fun a => (θ a).tokens)
  | .str s => rfl
  | .bool b => rfl
  | .hole a => by rw [fill, tokens, flatMap_singleton, Token.fill]
  | .list items comma => by
    rw [fill, tokens, tokens, flatMap_cons, flatMap_append, ← itemTokens_fill items]
    rfl
  | .dict members comma => by
    rw [fill, tokens, tokens, flatMap_cons, flatMap_append,
      ← memberTokens_fill members]
    rfl

theorem itemTokens_fill {comma : Bool} : ∀ ts : List (Tree α),
    itemTokens comma (fillItems σ θ ts) =
      (itemTokens comma ts).flatMap (Token.fill σ fun a => (θ a).tokens)
  | [] => rfl
  | t :: ts => by
    rw [fillItems, itemTokens, itemTokens, flatMap_append, flatMap_append,
      separator_fillItems, ← tokens_fill t, ← itemTokens_fill ts]

theorem memberTokens_fill {comma : Bool} : ∀ ts : List (List Char × Tree α),
    memberTokens comma (fillMembers σ θ ts) =
      (memberTokens comma ts).flatMap (Token.fill σ fun a => (θ a).tokens)
  | [] => rfl
  | (k, t) :: ts => by
    rw [fillMembers, memberTokens, memberTokens, flatMap_cons, flatMap_cons,
      flatMap_append, flatMap_append, separator_fillMembers, ← tokens_fill t,
      ← memberTokens_fill ts]
    rfl

end

theorem map_fst_fillMembers : ∀ ts : List (List Char × Tree α),
    (fillMembers σ θ ts).map Prod.fst = ts.map Prod.fst
  | [] => rfl
  | (k, t) :: ts => by rw [fillMembers, map_cons, map_cons, map_fst_fillMembers ts]

mutual

/-- Filling keeps the keys distinct. -/
theorem distinct_fill (h : ∀ a, (θ a).distinct = true) : ∀ {t : Tree α},
    t.distinct = true → (t.fill σ θ).distinct = true
  | .str s, _ => rfl
  | .bool b, _ => rfl
  | .hole a, _ => h a
  | .list items comma, ht => distinctItems_fill h ht
  | .dict members comma, ht => by
    rw [distinct, Bool.and_eq_true] at ht
    rw [fill, distinct, map_fst_fillMembers, ht.1, distinctMembers_fill h ht.2]
    rfl

theorem distinctItems_fill (h : ∀ a, (θ a).distinct = true) : ∀ {ts : List (Tree α)},
    distinctItems ts = true → distinctItems (fillItems σ θ ts) = true
  | [], _ => rfl
  | t :: ts, ht => by
    rw [distinctItems, Bool.and_eq_true] at ht
    rw [fillItems, distinctItems, distinct_fill h ht.1, distinctItems_fill h ht.2]
    rfl

theorem distinctMembers_fill (h : ∀ a, (θ a).distinct = true) :
    ∀ {ts : List (List Char × Tree α)},
      distinctMembers ts = true → distinctMembers (fillMembers σ θ ts) = true
  | [], _ => rfl
  | (k, t) :: ts, ht => by
    rw [distinctMembers, Bool.and_eq_true] at ht
    rw [fillMembers, distinctMembers, distinct_fill h ht.1, distinctMembers_fill h ht.2]
    rfl

end

end Fill

end Tree

/-! ## Parsing -/

/-- The literals, as names. -/
def literals : List (List Char) :=
  [['t', 'r', 'u', 'e'], ['f', 'a', 'l', 's', 'e'], ['n', 'u', 'l', 'l'],
    ['I', 'n', 'f', 'i', 'n', 'i', 't', 'y'], ['N', 'a', 'N']]

/-- The value of a literal. -/
def wordValue (w : List Char) : Option PyJson :=
  if w = ['t', 'r', 'u', 'e'] then some (.bool true)
  else if w = ['f', 'a', 'l', 's', 'e'] then some (.bool false)
  else if w = ['n', 'u', 'l', 'l'] then some .null
  else none

mutual

/-- The value at the front of a list of tokens, and the tokens after it. -/
def parseValue : Nat → List (Token Char) → Option (PyJson × List (Token Char))
  | 0, _ => none
  | _ + 1, .str s :: ts => some (.str (String.ofList s), ts)
  | _ + 1, .word w :: ts => (wordValue w).map fun v => (v, ts)
  | _ + 1, .hole _ :: ts => some (.null, ts)
  | n + 1, .punct .lbracket :: ts => (parseItems n ts).map fun r => (.list r.1, r.2)
  | n + 1, .punct .lbrace :: ts => (parseMembers n ts).map fun r => (.dict r.1, r.2)
  | _ + 1, _ => none

def parseItems : Nat → List (Token Char) → Option (List PyJson × List (Token Char))
  | 0, _ => none
  | n + 1, ts =>
    if ts.head? = some (.punct .rbracket) then some ([], ts.tail)
    else
      match parseValue n ts with
      | some (v, .punct .comma :: ts) => (parseItems n ts).map fun r => (v :: r.1, r.2)
      | some (v, .punct .rbracket :: ts) => some ([v], ts)
      | _ => none

def parseMembers : Nat → List (Token Char) → Option (List (String × PyJson) × List (Token Char))
  | 0, _ => none
  | _ + 1, .punct .rbrace :: ts => some ([], ts)
  | n + 1, .word k :: .punct .colon :: ts =>
    match parseValue n ts with
    | some (v, .punct .comma :: ts) =>
      (parseMembers n ts).map fun r => ((String.ofList k, v) :: r.1, r.2)
    | some (v, .punct .rbrace :: ts) => some ([(String.ofList k, v)], ts)
    | _ => none
  | _ + 1, _ => none

end

namespace Tree

theorem wordValue_bool (b : Bool) :
    wordValue (if b then ['t', 'r', 'u', 'e'] else ['f', 'a', 'l', 's', 'e']) =
      some (.bool b) := by
  cases b <;> rfl

/-- A tree is spelled by a token that closes no list. -/
theorem head?_tokens (t : Tree Char) (rest : List (Token Char)) :
    (t.tokens ++ rest).head? ≠ some (.punct .rbracket) := by
  cases t <;> simp [tokens]

theorem tokens_length_pos (t : Tree Char) : 0 < t.tokens.length := by
  cases t <;> simp [tokens]

/-- What follows an item: nothing after the last one, or a comma. -/
theorem separator_cases {α β : Type} (rest : List β) (comma : Bool) :
    (separator rest comma : List (Token α)) = [] ∧ rest = [] ∨
      (separator rest comma : List (Token α)) = [.punct .comma] := by
  rw [separator]
  cases rest <;> cases comma <;> simp

mutual

/-- The parser reads a tree off its tokens. -/
theorem parseValue_tokens : ∀ (t : Tree Char) {n : Nat} {rest : List (Token Char)},
    t.tokens.length ≤ n → parseValue n (t.tokens ++ rest) = some (t.value, rest)
  | t, 0, rest, hn => absurd (tokens_length_pos t) (by omega)
  | .str s, n + 1, rest, _ => by
    rw [tokens, singleton_append, parseValue, value]
  | .bool b, n + 1, rest, _ => by
    rw [tokens, singleton_append, parseValue, wordValue_bool, value]
    rfl
  | .hole a, n + 1, rest, _ => by
    rw [tokens, singleton_append, parseValue, value]
  | .list items comma, n + 1, rest, hn => by
    rw [tokens, length_cons, length_append] at hn
    rw [tokens, cons_append, parseValue, append_assoc,
      parseItems_tokens items (Nat.le_of_succ_le_succ hn), value]
    rfl
  | .dict members comma, n + 1, rest, hn => by
    rw [tokens, length_cons, length_append] at hn
    rw [tokens, cons_append, parseValue, append_assoc,
      parseMembers_tokens members (Nat.le_of_succ_le_succ hn), value]
    rfl

theorem parseItems_tokens {comma : Bool} : ∀ (ts : List (Tree Char)) {n : Nat}
    {rest : List (Token Char)}, (itemTokens comma ts).length + 1 ≤ n →
      parseItems n (itemTokens comma ts ++ ([.punct .rbracket] ++ rest)) =
        some (itemValues ts, rest)
  | _, 0, _, hn => absurd hn (by omega)
  | [], n + 1, rest, _ => by
    rw [parseItems, itemTokens, itemValues]
    rfl
  | t :: ts, n + 1, rest, hn => by
    rw [itemTokens, List.length_append, List.length_append] at hn
    have hpos := tokens_length_pos t
    rw [itemTokens, append_assoc, parseItems, if_neg (head?_tokens t _),
      parseValue_tokens t (by omega), append_assoc]
    have hrest : parseItems n (itemTokens comma ts ++ ([.punct .rbracket] ++ rest)) =
        some (itemValues ts, rest) := parseItems_tokens ts (by omega)
    -- the last one may be without a comma
    rcases separator_cases ts comma with ⟨hsep, rfl⟩ | hsep
    · rw [hsep]
      rfl
    · rw [hsep, singleton_append]
      dsimp only
      rw [hrest, itemValues]
      rfl

theorem parseMembers_tokens {comma : Bool} : ∀ (ts : List (List Char × Tree Char)) {n : Nat}
    {rest : List (Token Char)}, (memberTokens comma ts).length + 1 ≤ n →
      parseMembers n (memberTokens comma ts ++ ([.punct .rbrace] ++ rest)) =
        some (memberValues ts, rest)
  | _, 0, _, hn => absurd hn (by omega)
  | [], n + 1, rest, _ => by
    rw [memberTokens, memberValues, List.nil_append, List.singleton_append, parseMembers]
  | (k, t) :: ts, n + 1, rest, hn => by
    rw [memberTokens, List.length_cons, List.length_cons, List.length_append,
      List.length_append] at hn
    have hrest : parseMembers n (memberTokens comma ts ++ ([.punct .rbrace] ++ rest)) =
        some (memberValues ts, rest) := parseMembers_tokens ts (by omega)
    rw [memberTokens, cons_append, cons_append, parseMembers, append_assoc,
      parseValue_tokens t (by omega), append_assoc]
    -- the last one may be without a comma
    rcases separator_cases ts comma with ⟨hsep, rfl⟩ | hsep
    · rw [hsep]
      rfl
    · rw [hsep, singleton_append]
      dsimp only
      rw [hrest, memberValues]
      rfl

end

end Tree

/-! ## Writing lists of strings -/

/-- A character in a string, as it is written. -/
def escapeChar (c : Char) : List Char :=
  if c = '"' then ['\\', '"']
  else if c = '\\' then ['\\', '\\']
  else if c = '\n' then ['\\', 'n']
  else [c]

/-- The characters for which `escapeChar` is how they are written. -/
def writable (c : Char) : Bool := (32 ≤ c.toNat && c.toNat ≤ 126) || c == '\n'

variable {c : Char} {xs : List (List Char)}

/-- Of the writable characters only a newline ends a line. -/
theorem lineEnd_of_writable (hc : writable c = true) (hnl : c ≠ '\n') :
    lineEnd c = false := by
  have hrange : 32 ≤ c.toNat ∧ c.toNat ≤ 126 := by simpa [writable, hnl] using hc
  have hcr : c ≠ '\r' := by
    rintro rfl
    exact absurd hrange.1 (by decide)
  simp only [lineEnd, Bool.or_eq_false_iff, beq_eq_false_iff_ne]
  exact ⟨⟨⟨hnl, hcr⟩, by omega⟩, by omega⟩

/-- A string, as it is written. -/
def quoted (s : List Char) : List Char := '"' :: (s.flatMap escapeChar ++ ['"'])

/-- The strings of a list, as they are written after the first. -/
def quotedRest : List (List Char) → List Char
  | [] => []
  | x :: xs => ',' :: ' ' :: (quoted x ++ quotedRest xs)

/-- A list of strings, as it is written. -/
def arrayChars : List (List Char) → List Char
  | [] => ['[', ']']
  | x :: xs => '[' :: (quoted x ++ (quotedRest xs ++ [']']))

/-- `dumps` of a list of strings. -/
def arrayText (xs : List String) : String := String.ofList (arrayChars (xs.map String.toList))

/-- The tree that `arrayChars` spells. -/
def arrayTree (xs : List (List Char)) : Tree Char := .list (xs.map .str) false

/-- A written character is read back. -/
theorem lexText_escapeChar (hc : writable c = true) (s cs : List Char) :
    lexText (.str s) (escapeChar c ++ cs) = lexText (.str (s ++ [c])) cs := by
  rw [escapeChar]
  split_ifs with hquote hback hnl
  · rw [hquote]
    rfl
  · rw [hback]
    rfl
  · rw [hnl]
    rfl
  · refine lexText_str (fun d hd => ?_) s cs
    obtain rfl := mem_singleton.mp hd
    simp [stringChar, hquote, hback, lineEnd_of_writable hc hnl]

theorem lexText_escaped {v : List Char} (hv : ∀ c ∈ v, writable c = true) (s cs : List Char) :
    lexText (.str s) (v.flatMap escapeChar ++ cs) = lexText (.str (s ++ v)) cs := by
  induction v generalizing s with
  | nil => rw [flatMap_nil, nil_append, append_nil]
  | cons c v ih =>
    rw [flatMap_cons, append_assoc, lexText_escapeChar (hv c mem_cons_self),
      ih (fun d hd => hv d (mem_cons_of_mem _ hd)), append_assoc]
    rfl

/-- A written string is one token. -/
theorem lexText_quoted {v : List Char} (hv : ∀ c ∈ v, writable c = true) (cs : List Char) :
    lexText .plain (quoted v ++ cs) =
      (.str v :: (lexText .plain cs).1, (lexText .plain cs).2) := by
  have hopen : step Kind.char id .plain '"' = some ([], .str []) := by decide
  have hclose : step Kind.char id (.str v) '"' = some ([.str v], .plain) := by
    simp [step]
  rw [quoted, cons_append, append_assoc, lexText_cons hopen, lexText_escaped hv,
    nil_append, nil_append, singleton_append, lexText_cons hclose]
  rfl

theorem lexText_quotedRest (hxs : ∀ x ∈ xs, ∀ c ∈ x, writable c = true) (cs : List Char) :
    lexText .plain (quotedRest xs ++ cs) =
      ((xs.flatMap fun x => [.punct .comma, .str x]) ++ (lexText .plain cs).1,
        (lexText .plain cs).2) := by
  induction xs with
  | nil => rfl
  | cons x xs ih =>
    have hcomma : step Kind.char id .plain ',' = some ([.punct .comma], .plain) := by decide
    have hblank : step Kind.char id .plain ' ' = some ([], .plain) := by decide
    rw [quotedRest, cons_append, cons_append, append_assoc, lexText_cons hcomma,
      lexText_cons hblank, lexText_quoted (hxs x mem_cons_self),
      ih fun y hy => hxs y (mem_cons_of_mem _ hy)]
    rfl

theorem itemTokens_str : ∀ (x : List Char) (xs : List (List Char)),
    Tree.itemTokens false ((x :: xs).map Tree.str) =
      .str x :: xs.flatMap fun y => [.punct .comma, .str y]
  | x, [] => rfl
  | x, y :: xs => by
    rw [map_cons, Tree.itemTokens, itemTokens_str y xs]
    rfl

/-- A written list is read as its tokens. -/
theorem lexText_arrayChars (hxs : ∀ x ∈ xs, ∀ c ∈ x, writable c = true) (cs : List Char) :
    lexText .plain (arrayChars xs ++ cs) =
      ((arrayTree xs).tokens ++ (lexText .plain cs).1, (lexText .plain cs).2) := by
  have hclose : step Kind.char id .plain ']' = some ([.punct .rbracket], .plain) := by decide
  have hopen : step Kind.char id .plain '[' = some ([.punct .lbracket], .plain) := by decide
  have hend : lexText .plain ([']'] ++ cs) =
      ([.punct .rbracket] ++ (lexText .plain cs).1, (lexText .plain cs).2) :=
    lexText_cons hclose cs
  cases xs with
  | nil =>
    rw [arrayChars, cons_append, cons_append, lexText_cons hopen, lexText_cons hclose]
    rfl
  | cons x xs =>
    rw [arrayChars, cons_append, append_assoc, append_assoc, lexText_cons hopen,
      lexText_quoted (hxs x mem_cons_self),
      lexText_quotedRest fun y hy => hxs y (mem_cons_of_mem _ hy),
      hend, arrayTree, Tree.tokens, itemTokens_str]
    simp

/-- The characters that writing adds. -/
def writtenChars : List Char := ['[', ']', '"', ',', ' ', '\\', 'n']

theorem mem_escapeChar {d : Char} (h : c ∈ escapeChar d) :
    c ∈ writtenChars ∨ c = d ∧ c ≠ '\n' := by
  rw [escapeChar] at h
  split_ifs at h with hquote hback hnl
  · have hsub : ['\\', '"'] ⊆ writtenChars := by decide
    exact .inl (hsub h)
  · have hsub : ['\\', '\\'] ⊆ writtenChars := by decide
    exact .inl (hsub h)
  · have hsub : ['\\', 'n'] ⊆ writtenChars := by decide
    exact .inl (hsub h)
  · obtain rfl := mem_singleton.mp h
    exact .inr ⟨rfl, hnl⟩

theorem mem_quoted {s : List Char} (h : c ∈ quoted s) :
    c ∈ writtenChars ∨ c ∈ s ∧ c ≠ '\n' := by
  simp only [quoted, mem_cons, mem_append, mem_flatMap, not_mem_nil,
    or_false] at h
  rcases h with rfl | ⟨d, hd, hc⟩ | rfl
  · exact .inl (by decide)
  · rcases mem_escapeChar hc with hc | ⟨rfl, hnl⟩
    · exact .inl hc
    · exact .inr ⟨hd, hnl⟩
  · exact .inl (by decide)

theorem mem_quotedRest (h : c ∈ quotedRest xs) :
    c ∈ writtenChars ∨ ∃ x ∈ xs, c ∈ x ∧ c ≠ '\n' := by
  induction xs with
  | nil => cases h
  | cons x xs ih =>
    simp only [quotedRest, mem_cons, mem_append] at h
    rcases h with rfl | rfl | h | h
    · exact .inl (by decide)
    · exact .inl (by decide)
    · rcases mem_quoted h with hc | hc
      · exact .inl hc
      · exact .inr ⟨x, .head _, hc⟩
    · rcases ih h with hc | ⟨y, hy, hc⟩
      · exact .inl hc
      · exact .inr ⟨y, .tail _ hy, hc⟩

/-- A written list has the characters of its strings and those that writing adds. -/
theorem mem_arrayChars (h : c ∈ arrayChars xs) :
    c ∈ writtenChars ∨ ∃ x ∈ xs, c ∈ x ∧ c ≠ '\n' := by
  cases xs with
  | nil =>
    have hsub : ['[', ']'] ⊆ writtenChars := by decide
    exact .inl (hsub h)
  | cons x xs =>
    simp only [arrayChars, mem_cons, mem_append, not_mem_nil, or_false] at h
    rcases h with rfl | h | h | rfl
    · exact .inl (by decide)
    · rcases mem_quoted h with hc | hc
      · exact .inl hc
      · exact .inr ⟨x, .head _, hc⟩
    · rcases mem_quotedRest h with hc | ⟨y, hy, hc⟩
      · exact .inl hc
      · exact .inr ⟨y, .tail _ hy, hc⟩
    · exact .inl (by decide)

/-- No written list ends a line. -/
theorem lineEnd_of_mem_arrayChars (hxs : ∀ x ∈ xs, ∀ c ∈ x, writable c = true)
    (hc : c ∈ arrayChars xs) :
    lineEnd c = false := by
  rcases mem_arrayChars hc with hc | ⟨x, hx, hc, hnl⟩
  · have hwritten : (writtenChars.all fun d => !lineEnd d) = true := by decide
    exact (Bool.not_eq_true' _).mp (all_eq_true.mp hwritten c hc)
  · exact lineEnd_of_writable (hxs x hx c hc) hnl

/-! ## Libraries -/

/-- A JSON5 library: the value of a text, and the text of a list of strings. -/
structure Library where
  loads : String → Option PyJson
  dumps : List String → String

/-- A text may end outside of a token, or in a comment. -/
def Mode.atEnd : Mode Char → Bool
  | .plain => true
  | .comment => true
  | _ => false

/-- What is relied on of a library. -/
structure Library.Lawful (J : Library) : Prop where
  /-- A text that spells a tree has its value. -/
  loads_tree : ∀ (text : String) (t : Tree Char) (m : Mode Char), t.distinct = true →
    m.atEnd = true → lexText .plain text.toList = (t.tokens, some m) →
      J.loads text = some t.value
  /-- A text that begins with a name that is no literal has no value. -/
  loads_word : ∀ (text : String) (w : List Char) (ts : List (Token Char))
    (r : Option (Mode Char)), w ∉ literals → lexText .plain text.toList = (.word w :: ts, r) →
      J.loads text = none
  /-- A list of plain strings is written in the usual way. -/
  dumps_eq : ∀ xs : List String, (∀ x ∈ xs, ∀ c ∈ x.toList, writable c = true) →
    J.dumps xs = arrayText xs

/-- The value of the tokens of a whole text. -/
def parse (ts : List (Token Char)) : Option PyJson :=
  match parseValue (ts.length + 1) ts with
  | some (v, []) => some v
  | _ => none

/-- The part of JSON5 that is read here, as a library. -/
def reader : Library where
  loads text :=
    match lexText .plain text.toList with
    | (ts, some m) => if m.atEnd then parse ts else none
    | (_, none) => none
  dumps := arrayText

theorem parse_tokens (t : Tree Char) : parse t.tokens = some t.value := by
  have h : parseValue (t.tokens.length + 1) (t.tokens ++ []) = some (t.value, []) :=
    t.parseValue_tokens (Nat.le_succ _)
  rw [append_nil] at h
  rw [parse, h]

theorem parse_word {w : List Char} (hw : w ∉ literals) (ts : List (Token Char)) :
    parse (.word w :: ts) = none := by
  have hvalue : wordValue w = none := by
    simp only [literals, mem_cons, not_mem_nil, or_false, not_or] at hw
    rw [wordValue, if_neg hw.1, if_neg hw.2.1, if_neg hw.2.2.1]
  rw [parse, length_cons, parseValue, hvalue]
  rfl

theorem reader_lawful : reader.Lawful where
  loads_tree := by
    intro text t m _ hm hlex
    simp only [reader, hlex, hm, if_true]
    exact parse_tokens t
  loads_word := by
    intro text w ts r hw hlex
    simp only [reader, hlex]
    cases r with
    | none => rfl
    | some m =>
      dsimp only
      rw [parse_word hw, ite_self]
  dumps_eq := by
    intro xs _
    rfl

end Json5

import Efdi.Base.Json5
import Efdi.Base.Template

/-!
# JSON5 templates

A template of a JSON5 text is read without its values.  Its symbols are characters and
holes, and some of the holes stand for whole values.  `loads_rendered` says that a text
rendered from a template has the value of the template's tree with the holes filled, as
long as the values keep inside their holes.
-/

namespace Json5

open List
open Template (Piece placeholder source valueOf)

/-- A symbol of a template. -/
inductive Symbol where
  | char (c : Char)
  | hole (key : String)
deriving DecidableEq

/-- The kind of a symbol, given the keys of the holes for whole values and of the holes
inside strings. -/
def Symbol.kind (values texts : List String) : Symbol → Kind
  | .char c => .char c
  | .hole key => if key ∈ values then .value else if key ∈ texts then .text else .other

/-- The symbols of a piece. -/
def pieceSymbols : Piece → List Symbol
  | .text s => s.map .char
  | .hole key => [.hole key]

/-- The symbols of a template. -/
def symbols (ps : List Piece) : List Symbol := ps.flatMap pieceSymbols

/-- The text of a symbol. -/
def Symbol.text (subs : List (String × String)) : Symbol → List Char
  | .char c => [c]
  | .hole key =>
    match valueOf key subs with
    | some v => v.toList
    | none => placeholder key

theorem source_resolve (subs : List (String × String)) (ps : List Piece) :
    source (ps.map (Piece.resolve subs)) = (symbols ps).flatMap (Symbol.text subs) := by
  induction ps with
  | nil => rfl
  | cons p ps ih =>
    have hp : (p.resolve subs).source = (pieceSymbols p).flatMap (Symbol.text subs) := by
      cases p with
      | text s =>
        rw [pieceSymbols, flatMap_map]
        exact (flatMap_singleton' s).symm
      | hole key =>
        rw [pieceSymbols, flatMap_singleton, Piece.resolve, Symbol.text]
        cases valueOf key subs with
        | some v => rfl
        | none => rfl
    rw [source] at ih
    rw [symbols] at ih
    rw [source, map_cons, flatMap_cons, symbols, flatMap_cons,
      flatMap_append, hp, ih]

section Rendered

variable {values texts : List String} {subs : List (String × String)} {trees : String → Tree Char}

/-- The tree of a symbol. -/
def Symbol.tree (trees : String → Tree Char) : Symbol → Tree Char
  | .char _ => .str []
  | .hole key => trees key

/-- The values keep inside their holes: the ones in strings stand for themselves, and the
whole values are read as their trees. -/
structure Fits (values texts : List String) (subs : List (String × String))
    (trees : String → Tree Char) : Prop where
  text : ∀ key ∈ texts, ∀ c ∈ Symbol.text subs (.hole key), stringChar c = true
  line : ∀ key ∈ values, ∀ c ∈ Symbol.text subs (.hole key), lineEnd c = false
  value : ∀ key ∈ values, lexText .plain (Symbol.text subs (.hole key) ++ [',']) =
    ((trees key).tokens ++ [.punct .comma], some .plain)

theorem Fits.filling (h : Fits values texts subs trees) :
    Filling (Symbol.kind values texts) .char (Symbol.text subs)
      (fun a => (Symbol.tree trees a).tokens) where
  char := by
    intro a c hkind
    cases a with
    | char d =>
      cases hkind
      rfl
    | hole key =>
      rw [Symbol.kind] at hkind
      split_ifs at hkind
  lift := by
    intro c
    rfl
  text := by
    intro a hkind
    cases a with
    | char d => cases hkind
    | hole key =>
      rw [Symbol.kind] at hkind
      split_ifs at hkind with _ hkey
      exact h.text key hkey
  value := by
    intro a hkind
    cases a with
    | char d => cases hkind
    | hole key =>
      rw [Symbol.kind] at hkind
      split_ifs at hkind with hkey
      exact ⟨h.line key hkey, h.value key hkey⟩

/-- A rendered text is read as the filled tree of its template. -/
theorem lexText_rendered (h : Fits values texts subs trees) {ps : List Piece} {t : Tree Symbol}
    (hlex : lex (Symbol.kind values texts) .char .plain (symbols ps) = (t.tokens, some .plain)) :
    lexText .plain (source (ps.map (Piece.resolve subs))) =
      ((t.fill (Symbol.text subs) (Symbol.tree trees)).tokens, some .plain) := by
  rw [source_resolve, Tree.tokens_fill]
  refine (lex_fill h.filling hlex).trans ?_
  simp [lexText, lex, Mode.fill, Mode.pending]

theorem loads_rendered {J : Library} (hJ : J.Lawful) (h : Fits values texts subs trees)
    (hdistinct : ∀ key, (trees key).distinct = true) {ps : List Piece} {t : Tree Symbol}
    (ht : t.distinct = true)
    (hlex : lex (Symbol.kind values texts) .char .plain (symbols ps) = (t.tokens, some .plain)) :
    J.loads (String.ofList (source (ps.map (Piece.resolve subs)))) =
      some (t.fill (Symbol.text subs) (Symbol.tree trees)).value := by
  have hfilled : (t.fill (Symbol.text subs) (Symbol.tree trees)).distinct = true := by
    refine Tree.distinct_fill (fun a => ?_) ht
    cases a with
    | char c => rfl
    | hole key => exact hdistinct key
  refine hJ.loads_tree _ _ .plain hfilled rfl ?_
  rw [String.toList_ofList]
  exact lexText_rendered h hlex

/-! ## Values that break out -/

/-- The symbols before the first hole of a key are read as a comment, and the `n` symbols
after it as a name that is no literal. -/
def breaksAt (values before : List String) (syms : List Symbol) (key : String) (n : Nat) : Bool :=
  let pre := syms.takeWhile (· != .hole key)
  let post := (syms.drop (pre.length + 1)).take n
  syms[pre.length]? == some (.hole key) &&
    lex (Symbol.kind values before) .char .plain pre == ([], some .comment) &&
    match lex (Symbol.kind values before) .char .plain post with
    | ([.word w], some .plain) => !literals.contains w
    | _ => false

/-- A value that ends in a newline breaks out of a comment, and the rest of the comment is no
JSON5. -/
theorem loads_breaksAt {J : Library} (hJ : J.Lawful) {before : List String}
    (h : Fits values before subs trees) {ps : List Piece} {key : String} {n : Nat}
    (hbreaks : breaksAt values before (symbols ps) key n = true) {body : List Char}
    (hbody : ∀ c ∈ body, lineEnd c = false)
    (hvalue : Symbol.text subs (.hole key) = body ++ ['\n']) :
    J.loads (String.ofList (source (ps.map (Piece.resolve subs)))) = none := by
  have hsource := source_resolve subs ps
  revert hbreaks hsource
  generalize symbols ps = syms
  intro hbreaks hsource
  simp only [breaksAt, Bool.and_eq_true, beq_iff_eq] at hbreaks
  obtain ⟨⟨hhole, hpre⟩, hword⟩ := hbreaks
  generalize hk : (syms.takeWhile (· != .hole key)) = pre at hhole hpre hword
  split at hword
  next w hpost =>
    have hw : w ∉ literals := by simpa using hword
    obtain ⟨mid, rest, hsyms, hmid⟩ : ∃ mid rest, syms = pre ++ .hole key :: (mid ++ rest) ∧
        lex (Symbol.kind values before) .char .plain mid = ([.word w], some .plain) := by
      refine ⟨_, (syms.drop (pre.length + 1)).drop n, ?_, hpost⟩
      obtain ⟨hlt, hget⟩ := List.getElem?_eq_some_iff.mp hhole
      have htake : syms.take pre.length = pre := by
        rw [← hk]
        exact (List.prefix_iff_eq_take.mp (List.takeWhile_prefix _)).symm
      rw [List.take_append_drop, ← hget, ← List.drop_eq_getElem_cons hlt]
      conv_lhs => rw [← List.take_append_drop pre.length syms, htake]
    -- the text before the hole is a comment, the value ends it, and then comes the name
    have hcomment : lexText .plain (pre.flatMap (Symbol.text subs)) = ([], some .comment) :=
      lex_fill h.filling hpre
    have hname : lexText .plain (mid.flatMap (Symbol.text subs)) = ([.word w], some .plain) :=
      lex_fill h.filling hmid
    have hbreak : step Kind.char id .comment '\n' = some ([], .plain) := by decide
    refine hJ.loads_word _ w (lexText .plain (rest.flatMap (Symbol.text subs))).1
      (lexText .plain (rest.flatMap (Symbol.text subs))).2 hw ?_
    rw [String.toList_ofList, hsource, hsyms, List.flatMap_append, List.flatMap_cons,
      List.flatMap_append, hvalue, List.append_assoc, List.singleton_append,
      lexText_append hcomment, lexText_comment hbody, lexText_cons hbreak, lexText_append hname]
    rfl
  · cases hword

end Rendered

end Json5

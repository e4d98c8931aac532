/-
**The types that a text mentions.**

The types are read from a text line by line.  A line is split into tokens, up to a comment, and a
word is a type, or the type that a path begins with, by the tokens in front of it and behind it.  A
line that is spelled from words has them among its tokens.

Main definitions:

* `Bindings.Token`, `Bindings.tokens` — the tokens of a line;
* `Bindings.isTypeBetween`, `Bindings.typesAmong` — which words are types;
* `Bindings.lineTypes`, `Bindings.typesOf?` — the types that a line and a text mention.

Main results:

* `Bindings.tokens_spell` — **a spelled line has its words among its tokens**;
* `Bindings.lineTypes_spell` — the types that a spelled line mentions are found among its tokens.
-/

import ScenePack.Proofs.Bindings.StructText

set_option relaxedAutoImplicit false
set_option autoImplicit false

namespace ScenePack

namespace Bindings

/-! ### Tokens -/

/-- A token of a line: a word, or a character outside of words. -/
inductive Token where
  | word (text : List Char)
  | mark (c : Char)
  deriving DecidableEq

/-- The characters of words: those of identifiers, and the mark of raw ones. -/
def inWord (c : Char) : Bool := continuesIdentifier c || c = '#'

/-- Tokens with a character of a word in front. -/
def extend (c : Char) : List Token → List Token
  | .word text :: rest => .word (c :: text) :: rest
  | rest => .word [c] :: rest

/-- The tokens of a line, blanks included. -/
def tokens : List Char → List Token
  | [] => []
  | c :: rest => if inWord c then extend c (tokens rest) else .mark c :: tokens rest

/-- Tokens without blanks. -/
def solid (list : List Token) : List Token := list.filter (· ≠ .mark ' ')

/-- The marks and words that make a type the target of a pointer or a reference. -/
def sigils : List Token :=
  [.mark '*', .mark '&', .word ['c', 'o', 'n', 's', 't'], .word ['m', 'u', 't']]

/-- What announces a type, the last token first. -/
def announcements : List (List Token) :=
  [[.mark ':'], [.mark '>', .mark '-'], [.mark '<'], [.word ['a', 's']],
    [.word ['i', 'm', 'p', 'l']],
    [.mark '(', .mark '!', .word ['o', 'f', 'f', 's', 'e', 't', '_', 'o', 'f']]]

/-- What stands between the parts of a path. -/
def separator : List Token := [.mark ':', .mark ':']

/-- Whether the word between given tokens is a type, or the type that a path begins with.  The
tokens in front of the word come last one first. -/
def isTypeBetween (before after : List Token) : Bool :=
  !separator.isPrefixOf before && before[2]? ≠ some (.mark '$') &&
    (announcements.any (·.isPrefixOf (before.dropWhile sigils.contains)) ||
      separator.isPrefixOf after)

/-- The words at the places of types among tokens, behind the given ones, up to a comment. -/
def typesAmong : (before : List Token) → List Token → List (List Char)
  | _, [] => []
  | before, .mark c :: after =>
      if c = '/' ∧ after.head? = some (.mark '/') then [] else typesAmong (.mark c :: before) after
  | before, .word text :: after =>
      if isTypeBetween before after then
        text :: typesAmong (.word text :: before) after
      else typesAmong (.word text :: before) after

/-- The words that are not keywords. -/
def free (words : List String) : List String := words.filter fun word => !keywords.contains word

/-- The types that a line mentions by a path that begins with their name. -/
def lineTypes (line : String) : List String :=
  free ((typesAmong [] (solid (tokens line.toList))).map String.ofList)

@[simp] theorem free_nil : free [] = [] := rfl

theorem free_eq_self {words : List String} (h : ∀ word ∈ words, word ∉ keywords) :
    free words = words :=
  List.filter_eq_self.2 fun word hword => by simpa using h word hword

theorem lineTypes_ofList (line : List Char) :
    lineTypes (String.ofList line) =
      free ((typesAmong [] (solid (tokens line))).map String.ofList) := by
  rw [lineTypes, String.toList_ofList]

example : lineTypes "    let scene = data as *mut Scene; // not a u8" = ["Scene"] :=
  (lineTypes_ofList _).trans (by decide)

/-- The types that a text mentions by a path that begins with their name. -/
def typesOf? (text : String) : Option (List String) := (linesOf? text).map (List.flatMap lineTypes)

/-! ### Tokens of spelled lines -/

/-- Whether a list of characters ends outside of a word. -/
def endsOutside (chars : List Char) : Bool := chars.getLast?.all fun c => !inWord c

/-- Whether a list of characters begins outside of a word. -/
def beginsOutside (chars : List Char) : Bool := chars.head?.all fun c => !inWord c

theorem extend_append {c : Char} {list : List Token} (h : list ≠ []) (rest : List Token) :
    extend c (list ++ rest) = extend c list ++ rest := by
  cases list with
  | nil => exact absurd rfl h
  | cons token list => cases token <;> rfl

theorem tokens_ne_nil {chars : List Char} (h : chars ≠ []) : tokens chars ≠ [] := by
  cases chars with
  | nil => exact absurd rfl h
  | cons c rest =>
      rw [tokens]
      split
      · cases tokens rest with
        | nil => exact List.cons_ne_nil _ _
        | cons token list => cases token <;> exact List.cons_ne_nil _ _
      · exact List.cons_ne_nil _ _

/-- Characters that end outside of a word are split on their own. -/
theorem tokens_append {front : List Char} (h : endsOutside front = true) (back : List Char) :
    tokens (front ++ back) = tokens front ++ tokens back := by
  induction front with
  | nil => rfl
  | cons c rest ih =>
      cases rest with
      | nil =>
          have hc : inWord c = false := by simpa [endsOutside] using h
          simp [tokens, hc]
      | cons d rest =>
          have htail : tokens (d :: rest ++ back) = tokens (d :: rest) ++ tokens back :=
            ih (by simpa [endsOutside] using h)
          rw [List.cons_append, tokens, htail, tokens.eq_2 c]
          split
          · exact extend_append (tokens_ne_nil (List.cons_ne_nil _ _)) _
          · rfl

/-- A word in front of what begins outside of a word is a token. -/
theorem tokens_word_append {word back : List Char} (hne : word ≠ [])
    (hword : ∀ c ∈ word, inWord c = true) (hback : beginsOutside back = true) :
    tokens (word ++ back) = .word word :: tokens back := by
  induction word with
  | nil => exact absurd rfl hne
  | cons c rest ih =>
      obtain ⟨hc, hrest⟩ := List.forall_mem_cons.1 hword
      rw [List.cons_append, tokens, if_pos hc]
      cases rest with
      | nil =>
          cases back with
          | nil => rfl
          | cons d back =>
              have hd : inWord d = false := by simpa [beginsOutside] using hback
              simp [tokens, hd, extend]
      | cons d rest => rw [ih (List.cons_ne_nil _ _) hrest, extend]

/-- A part of a line between words: it neither begins nor ends with a word. -/
def delimits (part : List Char) : Bool :=
  part ≠ [] && beginsOutside part && endsOutside part

/-- A text that is a single word. -/
def IsToken (text : String) : Prop := text ≠ "" ∧ IsWord text

/-- The tokens of words with their parts. -/
def spellTokens : (parts : List (List Char)) → (words : List String) → List Token
  | part :: parts, word :: words => .word word.toList :: (tokens part ++ spellTokens parts words)
  | _, _ => []

/-- Texts with their characters. -/
abbrev Literals : (texts : List String) → (characters : List (List Char)) → Prop :=
  List.Forall₂ fun text characters => text = String.ofList characters

/-- **A spelled line has its words among its tokens.** -/
theorem tokens_spell {parts words : List String} {pieces : List (List Char)}
    (hparts : Literals parts pieces) (hpieces : ∀ piece ∈ pieces, delimits piece)
    (hwords : ∀ word ∈ words, IsToken word) :
    tokens (spell parts words).toList = spellTokens pieces words := by
  induction hparts generalizing words with
  | nil => rfl
  | @cons part piece parts pieces hpart _ ih =>
      cases words with
      | nil => rfl
      | cons word words =>
          obtain ⟨hpiece, hpieces⟩ := List.forall_mem_cons.1 hpieces
          obtain ⟨⟨hne, hword⟩, hwords⟩ := List.forall_mem_cons.1 hwords
          simp only [delimits, Bool.and_eq_true, decide_eq_true_eq] at hpiece
          obtain ⟨⟨hpiece, hbegins⟩, hends⟩ := hpiece
          have hback : beginsOutside (piece ++ (spell parts words).toList) = true := by
            rw [beginsOutside, List.head?_append_of_ne_nil _ hpiece]
            exact hbegins
          have hchars : ∀ c ∈ word.toList, inWord c = true := by
            intro c hc
            simpa [inWord] using hword c hc
          rw [spell, String.toList_append, String.toList_append, hpart, String.toList_ofList,
            List.append_assoc, tokens_word_append (mt String.toList_eq_nil_iff.1 hne) hchars hback,
            tokens_append hends, ih hpieces hwords, spellTokens]

/-- The types that a spelled line mentions are found among its tokens. -/
theorem lineTypes_spell {front : String} {parts words found : List String} {chars : List Char}
    {pieces : List (List Char)} (hfront : front = String.ofList chars)
    (hparts : Literals parts pieces)
    (hfixed : endsOutside chars ∧ ∀ piece ∈ pieces, delimits piece)
    (hwords : ∀ word ∈ words, IsToken word)
    (hfound : typesAmong [] (solid (tokens chars ++ spellTokens pieces words)) =
      found.map String.toList) :
    lineTypes (front ++ spell parts words) = free found := by
  rw [lineTypes, hfront, String.toList_append, String.toList_ofList, tokens_append hfixed.1,
    tokens_spell hparts hfixed.2 hwords, hfound, List.map_map]
  simp [Function.comp_def]

/-! ### Names and numbers -/

theorem isToken_toString (number : Nat) : IsToken (toString number) := by
  refine ⟨fun h => ?_, isWord_toString number⟩
  have hdigits := congrArg String.toList h
  rw [Nat.toString_eq_ofList_toDigits, String.toList_ofList] at hdigits
  exact Nat.toDigits_ne_nil hdigits

theorem isToken_of_isIdentifier {name : String} (h : isIdentifier name = true) : IsToken name :=
  ⟨by rintro rfl; exact absurd h (by decide), isWord_of_isIdentifier h⟩

theorem isToken_fieldName {name : String} (h : isIdentifier name = true) :
    IsToken (fieldName name) := by
  refine ⟨?_, isWord_fieldName h⟩
  rw [fieldName]
  split
  · simp
  · exact (isToken_of_isIdentifier h).1

/-- A fingerprint is a word: a digest is not empty. -/
theorem isToken_fingerprint (registry : Registry) : IsToken registry.fingerprint := by
  refine ⟨fun h => ?_, isWord_hex _⟩
  have hdigits := congrArg String.toList h
  rw [Registry.fingerprint, Hex.ofBytes, String.toList_ofList] at hdigits
  have hdigest : Blake3.digest registry.preimage = [] :=
    List.eq_nil_iff_forall_not_mem.2 (by simpa using hdigits)
  have hlength := Blake3.length_digest registry.preimage
  rw [hdigest] at hlength
  cases hlength

theorem isToken_name (type : ScalarType) : IsToken type.name := by
  refine isToken_of_isIdentifier ?_
  cases type <;> decide

end Bindings

end ScenePack

import Mathlib.Data.List.Basic

/-!
# Addresses after RFC 3986

The characters of an address, and the text behind the authority: a path, a query and a
fragment, read in one pass. The scan keeps the hexadecimal digits that a percent sign
still asks for, and whether a fragment may begin. The pieces between two slashes can be
scanned one by one.
-/

namespace RlInvestments.UriText

set_option autoImplicit false

def isUnreserved (letter : Char) : Bool :=
  letter.isAlphanum || ['-', '.', '_', '~'].contains letter

def isSubDelim (letter : Char) : Bool :=
  ['!', '$', '&', '\x27', '(', ')', '*', '+', ',', ';', '='].contains letter

def isGenDelim (letter : Char) : Bool :=
  [':', '/', '?', '#', '[', ']', '@'].contains letter

def isUriChar (letter : Char) : Bool :=
  isUnreserved letter || isSubDelim letter || isGenDelim letter || letter == '%'

def isPlain (letter : Char) : Bool :=
  isUnreserved letter || isSubDelim letter || [':', '@', '/', '?'].contains letter

def isHex (letter : Char) : Bool :=
  letter.isDigit || ('A' ≤ letter && letter ≤ 'F') || ('a' ≤ letter && letter ≤ 'f')

/-- `digits` are still due after a percent sign; a fragment begins at most once. -/
def uriRest : (digits : Nat) → (mayBegin : Bool) → List Char → Bool
  | digits, _, [] => digits == 0
  | 0, mayBegin, letter :: rest =>
      if letter = '%' then uriRest 2 mayBegin rest
      else if letter = '#' then mayBegin && uriRest 0 false rest
      else isPlain letter && uriRest 0 mayBegin rest
  | digits + 1, mayBegin, letter :: rest => isHex letter && uriRest digits mayBegin rest

/-- An address with the scheme `https`, a registered name as its host, and a path. -/
def HttpsUri (text : String) : Prop :=
  ∃ host rest : String, text = "https://" ++ host ++ "/" ++ rest ∧ host ≠ "" ∧
    (∀ letter ∈ host.toList, (isUnreserved letter || isSubDelim letter) = true) ∧
    uriRest 0 true rest.toList = true

theorem is_plain_uri_char {letter : Char} (plain : isPlain letter = true) :
    isUriChar letter = true := by
  simp only [isPlain, isUriChar, isGenDelim, List.contains_cons, Bool.or_eq_true] at plain ⊢
  tauto

theorem is_hex_uri_char {letter : Char} (hex : isHex letter = true) : isUriChar letter = true := by
  have alphanum : letter.isAlphanum = true := by
    simp only [isHex, Bool.or_eq_true, Bool.and_eq_true, decide_eq_true_eq] at hex
    rcases hex with (digit | ⟨above, below⟩) | ⟨above, below⟩
    · exact Bool.or_eq_true_iff.mpr (.inr digit)
    · have upper : letter.isUpper = true :=
        decide_eq_true ⟨above, Char.le_trans below (by decide : 'F' ≤ 'Z')⟩
      exact Bool.or_eq_true_iff.mpr (.inl (Bool.or_eq_true_iff.mpr (.inl upper)))
    · have lower : letter.isLower = true :=
        Bool.and_eq_true_iff.mpr ⟨decide_eq_true above,
          decide_eq_true (Char.le_trans below (by decide : 'f' ≤ 'z'))⟩
      exact Bool.or_eq_true_iff.mpr (.inl (Bool.or_eq_true_iff.mpr (.inr lower)))
  rw [isUriChar, isUnreserved, alphanum]
  rfl

theorem uri_rest_uri_chars {digits : Nat} {mayBegin : Bool} {text : List Char}
    (scanned : uriRest digits mayBegin text = true) : ∀ letter ∈ text, isUriChar letter = true := by
  induction text generalizing digits mayBegin with
  | nil => exact fun letter member => absurd member List.not_mem_nil
  | cons letter text induction =>
      rw [List.forall_mem_cons]
      cases digits with
      | succ digits =>
          rw [uriRest, Bool.and_eq_true] at scanned
          exact ⟨is_hex_uri_char scanned.1, induction scanned.2⟩
      | zero =>
          rw [uriRest] at scanned
          split_ifs at scanned with percent hash
          · exact ⟨by rw [percent]; decide, induction scanned⟩
          · rw [Bool.and_eq_true] at scanned
            exact ⟨by rw [hash]; decide, induction scanned.2⟩
          · rw [Bool.and_eq_true] at scanned
            exact ⟨is_plain_uri_char scanned.1, induction scanned.2⟩

theorem https_uri_chars {text : String} (address : HttpsUri text) :
    text.toList.all isUriChar = true := by
  obtain ⟨host, rest, rfl, -, letters, scanned⟩ := address
  have scheme : "https://".toList.all isUriChar = true := by decide
  have slash : "/".toList.all isUriChar = true := by decide
  have hostChars : host.toList.all isUriChar = true := by
    refine List.all_eq_true.mpr fun letter member => ?_
    rw [isUriChar, letters letter member]
    rfl
  have restChars : rest.toList.all isUriChar = true :=
    List.all_eq_true.mpr (uri_rest_uri_chars scanned)
  simp only [String.toList_append, List.all_append, scheme, slash, hostChars, restChars,
    Bool.and_self]

theorem uri_rest_plain {word : List Char} (plain : word.all isPlain = true) (mayBegin : Bool)
    (rest : List Char) : uriRest 0 mayBegin (word ++ rest) = uriRest 0 mayBegin rest := by
  induction word with
  | nil => rfl
  | cons letter word induction =>
      rw [List.all_cons, Bool.and_eq_true] at plain
      have notPercent : letter ≠ '%' := fun same => absurd (same ▸ plain.1) (by decide)
      have notHash : letter ≠ '#' := fun same => absurd (same ▸ plain.1) (by decide)
      rw [List.cons_append, uriRest, if_neg notPercent, if_neg notHash, plain.1, Bool.true_and,
        induction plain.2]

theorem uri_rest_slash (digits : Nat) (mayBegin : Bool) (piece rest : List Char) :
    uriRest digits mayBegin (piece ++ '/' :: rest) =
      (uriRest digits mayBegin piece && uriRest 0 (mayBegin && !piece.contains '#') rest) := by
  induction piece generalizing digits mayBegin with
  | nil =>
      cases digits with
      | zero => exact congrArg (uriRest 0 · rest) (Bool.and_true mayBegin).symm
      | succ digits => rfl
  | cons letter piece induction =>
      rw [List.cons_append, List.contains_cons]
      cases digits with
      | zero =>
          rw [uriRest, uriRest]
          by_cases percent : letter = '%'
          · rw [if_pos percent, if_pos percent, induction, percent]
            rfl
          · rw [if_neg percent, if_neg percent]
            by_cases hash : letter = '#'
            · rw [if_pos hash, if_pos hash, induction, hash, Bool.and_assoc]
              cases mayBegin <;> rfl
            · have other : ('#' == letter) = false := beq_false_of_ne (Ne.symm hash)
              rw [if_neg hash, if_neg hash, induction, other, Bool.false_or, Bool.and_assoc]
      | succ digits =>
          rw [uriRest, uriRest, induction, Bool.and_assoc]
          cases hex : isHex letter with
          | false => rfl
          | true =>
              have other : ('#' == letter) = false :=
                beq_false_of_ne fun same => absurd (same ▸ hex) (by decide)
              rw [other, Bool.false_or]

end RlInvestments.UriText

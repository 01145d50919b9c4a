import RlInvestments.HoverDataParser

/-!
# The platform-detection loops

Each loop compares the letters at every position up to a bound that is computed from the
length of the list, and stops when the index equals the bound. On a list that is long
enough for the bound to be a position the detection is exact; on a shorter one the
index starts beyond the bound and runs off the end.
-/

namespace RlInvestments.PlatformScan

open RlInvestments.WhileLoops RlInvestments.WordSearch RlInvestments.HoverDataParser

set_option autoImplicit false

variable {name : String} {back : Nat} {list : List Char} {platforms : List String}

theorem letters_at_occurs {word : List Char} {i : Nat} (fits : i + word.length ≤ list.length) :
    ∃ letters, lettersAt list i word.length = .ok letters ∧
      (letters = word ↔ word <+: list.drop i) :=
  ⟨_, if_pos fits, by rw [List.prefix_iff_eq_take, eq_comm]⟩

/-- What a loop has found before its index. -/
structure Scanned (name : String) (list : List Char) (platforms : List String)
    (scan : Nat × List String) : Prop where
  others : ∀ other, other ≠ name → (other ∈ scan.2 ↔ other ∈ platforms)
  found : name ∈ scan.2 ↔
    name ∈ platforms ∨ ∃ p < scan.1, name.toList <+: list.drop p

theorem compare_platform_round {scan : Nat × List String}
    (fits : scan.1 + name.toList.length ≤ list.length)
    (scanned : Scanned name list platforms scan) :
    ∃ next, comparePlatform name list scan = .ok next ∧ next.1 = scan.1 + 1 ∧
      Scanned name list platforms next := by
  obtain ⟨i, detected⟩ := scan
  obtain ⟨letters, reads, occurs⟩ := letters_at_occurs fits
  have earlier : (∃ p < i + 1, name.toList <+: list.drop p) ↔
      (∃ p < i, name.toList <+: list.drop p) ∨ name.toList <+: list.drop i :=
    Nat.exists_lt_succ_right
  have found := scanned.found
  refine ⟨(i + 1, if letters = name.toList then detected ++ [name] else detected), ?_, rfl, ?_⟩
  · simp only [comparePlatform, reads]
    rfl
  · by_cases matched : letters = name.toList
    · rw [if_pos matched]
      refine ⟨fun other different => ?_, ?_⟩
      · rw [List.mem_append, List.mem_singleton, or_iff_left different]
        exact scanned.others other different
      · rw [List.mem_append, List.mem_singleton, earlier]
        exact iff_of_true (.inr rfl) (.inr (.inr (occurs.mp matched)))
    · rw [if_neg matched]
      refine ⟨scanned.others, ?_⟩
      rw [earlier, or_iff_left (mt occurs.mpr matched)]
      exact found

variable (platforms) in
/-- The loop ends at its bound, having compared every position where the name can be. -/
theorem detect_platform_exact (fits : name.toList.length = back + 1)
    (long : back ≤ list.length) :
    ∃ detected, detectPlatform name back list platforms = .ok detected ∧
      (∀ other, other ≠ name → (other ∈ detected ↔ other ∈ platforms)) ∧
      (name ∈ detected ↔ name ∈ platforms ∨ name.toList <:+: list) := by
  have round : ∀ scan : Nat × List String,
      scan.1 + back ≤ list.length ∧ Scanned name list platforms scan →
      decide ((scan.1 : Int) ≠ list.length - back) = true →
      ∃ next, comparePlatform name list scan = .ok next ∧
        (next.1 + back ≤ list.length ∧ Scanned name list platforms next) ∧
        list.length - back - next.1 < list.length - back - scan.1 := by
    rintro scan ⟨inside, scanned⟩ goesOn
    have below : (scan.1 : Int) ≠ list.length - back := of_decide_eq_true goesOn
    obtain ⟨next, compares, moved, after⟩ := compare_platform_round (by omega) scanned
    exact ⟨next, compares, ⟨by omega, after⟩, by omega⟩
  have starts : Scanned name list platforms (0, platforms) :=
    ⟨fun _ _ => Iff.rfl, by simp⟩
  obtain ⟨⟨i, detected⟩, ends, ⟨inside, scanned⟩, stops⟩ :=
    run_while_total (fun scan => scan.1 + back ≤ list.length ∧ Scanned name list platforms scan)
      (fun scan => list.length - back - scan.1) round ⟨by omega, starts⟩
      (Nat.lt_succ_of_le ((Nat.sub_le _ _).trans (Nat.sub_le _ _)))
  have bound : (i : Int) = list.length - back := by simpa using stops
  refine ⟨detected, ?_, scanned.others, ?_⟩
  · rw [detectPlatform, ends]
    rfl
  · rw [scanned.found, infix_iff_occurs]
    refine or_congr_right ⟨fun ⟨p, _, occurs⟩ => ⟨p, occurs⟩, fun ⟨p, occurs⟩ => ⟨p, ?_, occurs⟩⟩
    have length := occurs.length_le
    rw [List.length_drop] at length
    dsimp only
    omega

/-- Below its bound the loop starts beyond it, and the first comparison runs off the end. -/
theorem detect_platform_short (fits : name.toList.length = back + 1)
    (short : list.length < back) :
    detectPlatform name back list platforms = .error (.fault .indexError) := by
  have goesOn : decide (((0 : Nat) : Int) ≠ list.length - back) = true :=
    decide_eq_true (by omega)
  have outside : ¬ 0 + name.toList.length ≤ list.length := by omega
  have raises : comparePlatform name list (0, platforms) = .error (.fault .indexError) := by
    simp only [comparePlatform, lettersAt, if_neg outside]
    rfl
  simp only [detectPlatform, runWhile, goesOn, raises, if_true]
  rfl

def platformNames : List String := ["pc", "ps4", "switch", "xbox"]

def DetectsExactly (list : List Char) : Prop :=
  ∃ platforms, detectPlatforms list = .ok platforms ∧
    ∀ name ∈ platformNames, name ∈ platforms ↔ name.toList <:+: list

theorem detects_exactly_long (long : 5 ≤ list.length) : DetectsExactly list := by
  obtain ⟨first, pcEnds, pcOthers, pcFound⟩ := detect_platform_exact []
    (show "pc".toList.length = 1 + 1 by decide) (show 1 ≤ list.length by omega)
  obtain ⟨second, ps4Ends, ps4Others, ps4Found⟩ := detect_platform_exact first
    (show "ps4".toList.length = 2 + 1 by decide) (show 2 ≤ list.length by omega)
  obtain ⟨third, switchEnds, switchOthers, switchFound⟩ := detect_platform_exact second
    (show "switch".toList.length = 5 + 1 by decide) (show 5 ≤ list.length by omega)
  obtain ⟨fourth, xboxEnds, xboxOthers, xboxFound⟩ := detect_platform_exact third
    (show "xbox".toList.length = 3 + 1 by decide) (show 3 ≤ list.length by omega)
  refine ⟨fourth, ?_, ?_⟩
  · rw [detectPlatforms, pcEnds]
    dsimp only [Bind.bind, Except.bind]
    rw [ps4Ends]
    dsimp only
    rw [switchEnds]
    exact xboxEnds
  · simp only [platformNames, List.forall_mem_cons, List.not_mem_nil, false_implies,
      implies_true, and_true]
    refine ⟨?_, ?_, ?_, ?_⟩
    · rw [xboxOthers "pc" (by decide), switchOthers "pc" (by decide),
        ps4Others "pc" (by decide), pcFound, or_iff_right List.not_mem_nil]
    · rw [xboxOthers "ps4" (by decide), switchOthers "ps4" (by decide), ps4Found,
        pcOthers "ps4" (by decide), or_iff_right List.not_mem_nil]
    · rw [xboxOthers "switch" (by decide), switchFound, ps4Others "switch" (by decide),
        pcOthers "switch" (by decide), or_iff_right List.not_mem_nil]
    · rw [xboxFound, switchOthers "xbox" (by decide), ps4Others "xbox" (by decide),
        pcOthers "xbox" (by decide), or_iff_right List.not_mem_nil]

/-- Two loops end on a list of two to four letters, the third one does not. -/
theorem detect_platforms_short (two : 2 ≤ list.length) (short : list.length < 5) :
    detectPlatforms list = .error (.fault .indexError) := by
  obtain ⟨first, pcEnds, -, -⟩ := detect_platform_exact []
    (show "pc".toList.length = 1 + 1 by decide) (show 1 ≤ list.length by omega)
  obtain ⟨second, ps4Ends, -, -⟩ := detect_platform_exact first
    (show "ps4".toList.length = 2 + 1 by decide) two
  have raises : detectPlatform "switch" 5 list second = .error (.fault .indexError) :=
    detect_platform_short (by decide) short
  rw [detectPlatforms, pcEnds]
  dsimp only [Bind.bind, Except.bind]
  rw [ps4Ends]
  dsimp only
  rw [raises]

/-- The lists that the loops are given are exact exactly from three letters between the
braces on. -/
theorem detects_exactly_iff (inner : List Char) :
    DetectsExactly ('{' :: (inner ++ ['}'])) ↔ 3 ≤ inner.length := by
  have length : ('{' :: (inner ++ ['}'])).length = inner.length + 2 := by simp
  constructor
  · rintro ⟨platforms, ends, -⟩
    by_contra short
    rw [detect_platforms_short (by omega) (by omega)] at ends
    exact nomatch ends
  · exact fun long => detects_exactly_long (by omega)

theorem empty_object_raises :
    detectPlatforms ['{', '}'] = .error (.fault .indexError) ∧
      ¬ DetectsExactly ('{' :: ([] ++ ['}'])) := by
  have raises : detectPlatforms ['{', '}'] = .error (.fault .indexError) :=
    detect_platforms_short (by decide) (by decide)
  refine ⟨raises, ?_⟩
  rintro ⟨platforms, ends, -⟩
  exact nomatch raises.symm.trans ends

end RlInvestments.PlatformScan

import GateRules.Proofs.Seams

/-!
# Two texts joined by a connective

A rule may be put behind another with a connective between them. Told by tokens this is one row behind another
(`Notation.Spells.joined`), whatever layout and comments the two texts have; what the row comes to as a draft depends on the
connective alone: `or` puts the groups of the two one after the other, and `and` makes one group of the two that meet.
-/

namespace GateRules

/-- A connective with a blank may be put in front of tokens. -/
theorem Notation.Spells.cons_link {word cs : List Char} {tokens : List Token} {link : Link}
    (spelt : word.map Char.toLower = link.word) (h : Spells cs tokens) :
    Spells (word ++ ' ' :: cs) (.link link :: tokens) := by
  have here : Reads (word ++ ' ' :: cs) (.link link) (' ' :: cs) := .mk spelt (by decide)
  have blank : Layout (' ' :: cs) cs := .single (.space (by decide))
  exact append_iff.2 ⟨' ' :: cs, .cons .refl here (.nil _), (iff_of_layout blank).2 h⟩

/-- Two texts with a connective on a new line between them spell the tokens of both with the connective between them. -/
theorem Notation.Spells.joined (link : Link) {word cs cs' : List Char} {a b : List Token} (ha : Spells cs a)
    (hb : Spells cs' b) (spelt : word.map Char.toLower = link.word) :
    Spells (cs ++ '\n' :: (word ++ ' ' :: cs')) (a ++ .link link :: b) :=
  ha.append_feed (hb.cons_link spelt)

/-- Drafts whose groups meet in one group have the tokens of both, with `and` between them. -/
theorem Draft.tokens_meet {front back : Draft} {last first : List Term} (hl : last ≠ []) (hf : first ≠ []) :
    tokens (front ++ (last ++ first) :: back) = tokens (front ++ [last]) ++ .link .and :: tokens (first :: back) := by
  have alone : tokens [last] = groupTokens last := List.intercalate_singleton
  by_cases hn : front = []
  · subst hn
    rw [List.nil_append, List.nil_append, tokens_append_cons hl hf, alone]
  · rw [tokens_append hn (by simp), tokens_append hn (by simp), tokens_append_cons hl hf, alone, List.append_assoc,
      List.cons_append]

/-- Two texts that are read, joined by a connective, in three parts, for all texts, whatever letter case the connective has.
1. Joined by `or` they are read as the groups of the one and then the groups of the other.
2. Joined by `and` they are read as the same, except that the last group of the one and the first of the other are one group.
3. Either way the terms are those of the one and then those of the other, so that none is lost and their numbers add up. -/
theorem Notation.read_joined {left right : String} {front back : Draft} {last first : List Term}
    (hl : read left = .ok (front ++ [last])) (hr : read right = .ok (first :: back)) :
    (∀ word : String, word.toList.map Char.toLower = ['o', 'r'] →
      read (left ++ "\n" ++ word ++ " " ++ right) = .ok ((front ++ [last]) ++ (first :: back))) ∧
    (∀ word : String, word.toList.map Char.toLower = ['a', 'n', 'd'] →
      read (left ++ "\n" ++ word ++ " " ++ right) = .ok (front ++ (last ++ first) :: back)) ∧
    ∀ (link : Link) (word : String), word.toList.map Char.toLower = link.word →
      ∃ draft, read (left ++ "\n" ++ word ++ " " ++ right) = .ok draft ∧
        draft.flatten = (front ++ [last]).flatten ++ (first :: back).flatten ∧
        draft.flatten.length = (front ++ [last]).flatten.length + (first :: back).flatten.length := by
  rw [read_eq_ok_iff_spells] at hl hr
  obtain ⟨fullLeft, spellsLeft⟩ := hl
  obtain ⟨fullRight, spellsRight⟩ := hr
  simp only [List.mem_append, List.mem_cons, List.not_mem_nil, or_false, not_or] at fullLeft fullRight
  have last_ne : last ≠ [] := Ne.symm fullLeft.2
  have first_ne : first ≠ [] := Ne.symm fullRight.1
  have text (word : String) : (left ++ "\n" ++ word ++ " " ++ right).toList =
      left.toList ++ '\n' :: (word.toList ++ ' ' :: right.toList) := by
    simp [String.toList_append]
  have byOr (word : String) (spelt : word.toList.map Char.toLower = ['o', 'r']) :
      read (left ++ "\n" ++ word ++ " " ++ right) = .ok ((front ++ [last]) ++ (first :: back)) := by
    rw [read_eq_ok_iff_spells, text, Draft.tokens_append (by simp) (by simp)]
    exact ⟨by simp [fullLeft, fullRight], Spells.joined .or spellsLeft spellsRight spelt⟩
  have byAnd (word : String) (spelt : word.toList.map Char.toLower = ['a', 'n', 'd']) :
      read (left ++ "\n" ++ word ++ " " ++ right) = .ok (front ++ (last ++ first) :: back) := by
    rw [read_eq_ok_iff_spells, text, Draft.tokens_meet last_ne first_ne]
    exact ⟨by simp [fullLeft, fullRight, last_ne], Spells.joined .and spellsLeft spellsRight spelt⟩
  refine ⟨byOr, byAnd, fun link word spelt => ?_⟩
  cases link with
  | or => exact ⟨_, byOr word spelt, by simp, by simp [Nat.add_assoc]⟩
  | and => exact ⟨_, byAnd word spelt, by simp, by simp [Nat.add_assoc]⟩

/-- A comment that ends the one text does not take in the connective, and a field of the other that is spelt like a connective
stays a field. -/
theorem Notation.read_joined_behind_comment :
    let left := "a in \"x or y\" or b equals \"\" # last"
    let right := "or in \"z\" and b contains \"w\" or c in \"v\""
    read (left ++ "\n" ++ "OR" ++ " " ++ right) =
        .ok [[⟨"a", "in", "x or y"⟩], [⟨"b", "equals", ""⟩], [⟨"or", "in", "z"⟩, ⟨"b", "contains", "w"⟩], [⟨"c", "in", "v"⟩]] ∧
      read (left ++ "\n" ++ "aNd" ++ " " ++ right) =
        .ok [[⟨"a", "in", "x or y"⟩], [⟨"b", "equals", ""⟩, ⟨"or", "in", "z"⟩, ⟨"b", "contains", "w"⟩], [⟨"c", "in", "v"⟩]] := by
  intro left right
  have hl : read left = .ok ([[⟨"a", "in", "x or y"⟩]] ++ [[⟨"b", "equals", ""⟩]]) := by decide +kernel
  have hr : read right = .ok ([⟨"or", "in", "z"⟩, ⟨"b", "contains", "w"⟩] :: [[⟨"c", "in", "v"⟩]]) := by decide +kernel
  obtain ⟨byOr, byAnd, -⟩ := read_joined hl hr
  exact ⟨byOr "OR" (by decide), byAnd "aNd" (by decide)⟩

end GateRules

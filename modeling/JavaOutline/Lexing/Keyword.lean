import JavaOutline.Lexing.Overlap

/-!
Which tokens are keywords.

A keyword is first read as a word and then recognised by its spelling. That is only sound when
reading a word in its place cannot disturb another token.
-/

namespace JavaOutline.Lexing

open Grammar
open Automaton (TokenSet)

/-- For each token, the tokens it is met with in one of the given sets. -/
def companions (size : Nat) (sets : List TokenSet) : Array TokenSet :=
  sets.foldl
    (fun (acc : Array TokenSet) set =>
      acc.mapIdx fun t known => if set.testBit t then known ||| set else known)
    (Array.replicate size 0)

def keywordLetters : CharSet :=
  ((CharSet.range 'A' 'Z').union (CharSet.range 'a' 'z')).union (CharSet.ofString "_")

def startsLikeKeyword (x : Lexeme) : Bool :=
  let start := x.machine.states.getD 0 default
  (List.range letterCount).all fun letter =>
    (x.machine.step 0 letter).isNone || start.skips.has letter || keywordLetters.has letter

/-- The keywords among the tokens, where `stateSets` are the sets of tokens that are looked for
together. -/
def keywords (lexemes : Array Lexeme) (overlaps : OverlapTable) (word : Nat)
    (stateSets : List TokenSet) : TokenSet :=
  let n := lexemes.size
  let tokens := List.range n
  let candidates := tokens.filter fun t =>
    startsLikeKeyword (lexemes.getD t default) &&
      (overlaps.get t word).sameText && !(overlaps.get t word).otherText
  let unshadowed := candidates.filter fun t =>
    candidates.all fun u => u == t || !(overlaps.get u t).sameText
  let wordless := companions n (stateSets.filter fun set => !set.testBit word)
  let chosen := unshadowed.filter fun t =>
    tokens.all fun u =>
      candidates.contains u || !(wordless.getD t 0).testBit u ||
        overlaps.get t u == overlaps.get word u
  chosen.foldl (fun set t => set ||| (1 <<< t)) 0

end JavaOutline.Lexing

import AbnfCompiler.Compilation.Construct
import AbnfCompiler.Proofs.Expression.Language
import AbnfCompiler.Proofs.Text.Numeral

/-!
What syntax trees mean in ABNF, apart from any way of compiling them: each kind of node says which
language it stands for, given the languages of its children and those of the rules that it names.
White space, comments and punctuation may stand between the children.
-/
namespace AbnfCompiler

open Text

/-- A bound of a repetition, which may be missing. -/
inductive BoundSpelling : List Char → Option ℕ → Prop
  | missing : BoundSpelling [] none
  | given {cs : List Char} {n : ℕ} : NumeralOf 10 cs n → BoundSpelling cs (some n)

/-- An operator such as `*`, `1*`, `*3`, `2*4` or `3`, with the least and the greatest number of
occurrences that it allows. -/
inductive RepeatSpelling : List Char → ℕ → Option ℕ → Prop
  | exactly {cs : List Char} {n : ℕ} : NumeralOf 10 cs n → RepeatSpelling cs n (some n)
  | between {ls us : List Char} {least most : Option ℕ} : BoundSpelling ls least →
      BoundSpelling us most → RepeatSpelling (ls ++ '*' :: us) (least.getD 0) most

/-- A hexadecimal value such as `x41`, `x0D.0A` or `x20-7E`, with its language. -/
inductive HexSpelling : List Char → Language Codepoint → Prop
  | series {m : Char} {groups : List (List Char)} {ns : List ℕ} : m = 'x' ∨ m = 'X' →
      groups ≠ [] → List.Forall₂ (NumeralOf 16) groups ns →
      HexSpelling (m :: ['.'].intercalate groups) {w | w.map Fin.val = ns}
  | range {m : Char} {ls hs : List Char} {low high : ℕ} : m = 'x' ∨ m = 'X' →
      NumeralOf 16 ls low → NumeralOf 16 hs high →
      HexSpelling (m :: (ls ++ '-' :: hs)) (codesBetween low high)

namespace SyntaxTree

/-- Kinds of nodes that stand for the one node they hold. -/
def wrapperKinds : List String :=
  ["elements", "element", "group", "char_val", "case_insensitive_string", "case_sensitive_string"]

/-- The text of a row of tokens without its blanks: that of the children, or the node's own if it
is not divided. -/
def tokenText (t : SyntaxTree) : List Char :=
  (withoutBlanks (if t.children = [] then t.text
    else String.join (t.children.map SyntaxTree.text))).toList

/-- A token of a hexadecimal value: a sign, or one or more digits. -/
def IsHexToken (t : SyntaxTree) : Prop :=
  (t.kind ∈ ["x", "X", "-", "."] ∧ t.text = t.kind) ∨
    (t.kind = "HEXDIG" ∧ ∃ n, NumeralOf 16 t.text.toList n)

variable (ρ : String → Language Codepoint)

mutual

/-- `t` is an expression of ABNF, and `L` is its language where names have the languages `ρ`. -/
inductive Denotes : SyntaxTree → Language Codepoint → Prop
  | wrapper {t : SyntaxTree} {L : Language Codepoint} :
      t.kind ∈ wrapperKinds → DenotesEach t.children [L] → Denotes t L
  | alternation {t : SyntaxTree} {Ls : List (Language Codepoint)} :
      t.kind = "alternation" → Ls ≠ [] → DenotesEach t.children Ls → Denotes t Ls.sum
  | concatenation {t : SyntaxTree} {Ls : List (Language Codepoint)} :
      t.kind = "concatenation" → Ls ≠ [] → DenotesEach t.children Ls → Denotes t Ls.prod
  | option {t : SyntaxTree} {L : Language Codepoint} :
      t.kind = "option" → DenotesEach t.children [L] → Denotes t (1 + L)
  | once {t : SyntaxTree} {L : Language Codepoint} :
      t.kind = "repetition" → DenotesEach t.children [L] → Denotes t L
  | repeated {t operator : SyntaxTree} {before after : List SyntaxTree} {least : ℕ}
      {most : Option ℕ} {L : Language Codepoint} :
      t.kind = "repetition" → t.children = before ++ operator :: after →
      (∀ b ∈ before, b.isMeaningful = false) → operator.isMeaningful →
      RepeatSpelling operator.tokenText least most → DenotesEach after [L] →
      Denotes t (occurring least most L)
  | name {t : SyntaxTree} :
      t.kind ∈ Compilation.referenceKinds → Denotes t (ρ (RuleName.normal t.text))
  | quoted {t : SyntaxTree} {s : String} :
      t.kind = "quoted_string" → t.text = "\"" ++ s ++ "\"" → Denotes t {Codepoint.ofText s}
  | numeral {t percent value : SyntaxTree} {L : Language Codepoint} :
      t.kind = "num_val" → t.children = [percent, value] → percent.kind = "%" →
      value.kind = "hex_val" → Denotes value L → Denotes t L
  | hexValue {t : SyntaxTree} {L : Language Codepoint} :
      t.kind = "hex_val" → (∀ c ∈ t.children, c.IsHexToken) → HexSpelling t.tokenText L →
      Denotes t L

/-- The meaningful ones among some nodes have the languages `Ls`, in this order. -/
inductive DenotesEach : List SyntaxTree → List (Language Codepoint) → Prop
  | nil : DenotesEach [] []
  | skip {t : SyntaxTree} {ts : List SyntaxTree} {Ls : List (Language Codepoint)} :
      t.isMeaningful = false → DenotesEach ts Ls → DenotesEach (t :: ts) Ls
  | cons {t : SyntaxTree} {ts : List SyntaxTree} {L : Language Codepoint}
      {Ls : List (Language Codepoint)} :
      t.isMeaningful → Denotes t L → DenotesEach ts Ls → DenotesEach (t :: ts) (L :: Ls)

end

end SyntaxTree

end AbnfCompiler

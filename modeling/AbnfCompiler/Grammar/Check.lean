import AbnfCompiler.Expression.Check
import AbnfCompiler.Grammar.Basic

/-!
Grammars as values.
-/
namespace AbnfCompiler

open Data Checked

def Rule.ofValue (v : Value) : Checked Rule :=
  asRecord v fun entries ↦
    Rule.mk <$> required entries "name" asText <*> required entries "body" Expression.ofValue
      <*> defaulted entries "hidden" asTruth false <*> defaulted entries "inline" asTruth false
      <*> defaulted entries "core" asTruth false
      <*> defaulted entries "comments" (asList asText) []

def Grammar.ofValue (v : Value) : Checked Grammar :=
  asRecord v fun entries ↦
    Grammar.mk <$> required entries "name" asText <*> required entries "start_rule" asText
      <*> defaulted entries "include_core_rules" asTruth false
      <*> defaulted entries "rules" (asList Rule.ofValue) []
      <*> defaulted entries "conflicts" (asList (asList asText)) []

end AbnfCompiler

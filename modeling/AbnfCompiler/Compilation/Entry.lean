import AbnfCompiler.Log.Channel
import AbnfCompiler.Compilation.Basic

/-!
The log entries of a compilation.
-/
namespace AbnfCompiler

open Log Data

def Unsupported.entry (c : Channel) (u : Unsupported) : Entry :=
  c.entry .error u.describe
    [("node_kind", .text u.kind), ("node_text", .text u.text), ("line", .int u.line)]

namespace Compilation

def log (grammar : String) : Channel :=
  ⟨"abnf_ts.translator.rule_translator", [("grammar", .text grammar)]⟩

def Event.entry (grammar : String) : Event → Entry
  | .unsupported u => u.entry (log grammar)
  | .skipped rule =>
    (log grammar).entry .warning ("Rule " ++ rule ++ " has no translatable body; skipped")
      [("rule", .text rule)]
  | .keptCore rule =>
    (log grammar).entry .debug ("Grammar defines core rule " ++ rule ++ "; keeping its definition")
  | .compiled ruleCount omitted =>
    (log grammar).entry .info ("Translated " ++ toString ruleCount ++ " rules ("
      ++ toString omitted ++ " unsupported constructs)") [("phase", .text "translate")]

end Compilation

end AbnfCompiler

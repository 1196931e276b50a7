import AbnfCompiler.Generation.Result

/-!
The summary at the end of a batch.
-/
namespace AbnfCompiler.Generation.Summary

def thick : String := String.ofList (List.replicate 60 '=')

def thin : String := String.ofList (List.replicate 60 '-')

def resultLines (r : Result) : List String :=
  ["  " ++ r.language ++ ": " ++ (if r.succeeded then "ok" else "gave up") ++ " after "
    ++ toString r.attempts ++ " attempt(s)"]
  ++ r.fixes.map (fun f ↦ "    - " ++ f.kind.tag ++ ": " ++ ", ".intercalate f.rules)
  ++ (if r.unsupported.isEmpty then []
    else ["    - " ++ toString r.unsupported.length ++ " unsupported construct(s) skipped"])
  ++ (match r.message with
    | none | some "" => []
    | some message => if r.succeeded then [] else ["    " ++ message])

/-- The results, followed by the grammars that came to no result. -/
def lines (results : List Result) (aborted : List String) : List String :=
  ["\n" ++ thick, "Summary", thick]
  ++ results.flatMap resultLines
  ++ aborted.map (fun name ↦ "  " ++ name ++ ": aborted")
  ++ [""]

end AbnfCompiler.Generation.Summary

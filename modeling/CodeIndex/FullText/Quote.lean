import CodeIndex.Text.Word

/-!
# Quoting a query

A free text as a query: each of its words between quotes, separated by single spaces.  A query made in
this way is well-formed whatever the text was.
-/

namespace CodeIndex.FullText

/-- A text between quotes, a quote inside being written twice. -/
def quotedWord (s : String) : String :=
  String.ofList ('\x22' :: s.toList.flatMap (fun c => if c == '\x22' then [c, c] else [c]) ++ ['\x22'])

def quoteQuery (s : String) : String :=
  " ".intercalate ((Text.words s).map quotedWord)

end CodeIndex.FullText

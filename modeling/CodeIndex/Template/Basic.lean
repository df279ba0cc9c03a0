import CodeIndex.Container
import CodeIndex.Entity.OfValue
import CodeIndex.Template.Scan
import CodeIndex.Text.Lines

/-!
# Template entities

A template file is one entity.  Its lexical text carries the names used in it, so that a query for any
of them finds the file.
-/

namespace CodeIndex.Template

/-- The name of every template entity, and a word of its lexical text. -/
def marker : String := "template"

def rawTextLimit : Nat := 500

/-- The words of a template's lexical text: container, marker, extension and the names in use. -/
def lexicalParts (container path content : String) : List String :=
  let extension := String.ofList ((Path.ofString path).suffix.toList.dropWhile (· == '.'))
  [container, marker, extension] ++ components content ++ assigns content ++ calls content

def entity (path content : String) (sourceDirs extensions : List String) : Checked Entity :=
  if path == "" then Checked.inside (.key "path") (.complain .stringTooShort (.text path))
  else
    let container := containerOfPath path sourceDirs extensions "Template"
    .ok { id := identity container marker 0 path, container, name := marker, arity := 0
          kind := .template, path, startLine := 1, endLine := max 1 (Text.lines content).length
          signature := some marker
          doc := some ("Template with components: " ++ ", ".intercalate (components content))
          lexicalText := " ".intercalate ((lexicalParts container path content).filter (· != ""))
          rawText := some (String.ofList (content.toList.take rawTextLimit))
          references := calls content }

end CodeIndex.Template

import StylesheetImports.PackedSpecifier
import StylesheetImports.Rebase.Edit
import StylesheetImports.Rebase.Reference
import StylesheetImports.Stylesheet.Scan

/-!
Rebasing. All stylesheets of a build end in one output whose relative references start from the directory
of the entry stylesheet. Each reference of another stylesheet is made to start from there, and each
package specifier is packed with the directory it was written in.
-/

set_option autoImplicit false

namespace StylesheetImports

/-- Where rebased references start, what package specifiers begin with, and whether it is reported what
was replaced. -/
structure Rebaser where
  entryDir : Path
  packageMarks : List String
  reports : Bool
  deriving DecidableEq

namespace Rebaser

def defaultMarks : List String := ["~", "pkg:"]

def anchored (dir : Path) (packageMarks : List String) (reports : Bool) : Rebaser :=
  { entryDir := dir.normalize, packageMarks, reports }

-- Whether a specifier begins with one of the marks; an empty mark marks nothing.
def isPackage (r : Rebaser) (specifier : String) : Bool :=
  r.packageMarks.any (fun mark => mark ≠ "" && mark.toList.isPrefixOf specifier.toList)

/-- The edit for an argument of a stylesheet in `fileDir`, unless it is a call, stays as it is, or reads
the same from the entry directory. -/
def argumentEdit? (r : Rebaser) (text : List Char) (fileDir : Path) (arg : Argument) : Option Edit :=
  let written := Utf8.slice? arg.span text
  if (written.map Reference.isCall).getD false then none
  else
    (Reference.rebase? arg.value.toList fileDir r.entryDir).bind fun replacement =>
      if written = some replacement then none else some { span := arg.span, replacement }

def specifierEdit? (r : Rebaser) (fileDir : Path) (spec : Specifier) : Option Edit :=
  if r.isPackage spec.value then
    let packed : PackedSpecifier := { origin := fileDir, specifier := spec.value }
    some { span := spec.span, replacement := packed.quoted.toList }
  else none

def edits (r : Rebaser) (text : List Char) (fileDir : Path) (scan : Scan) : List Edit :=
  scan.arguments.filterMap (r.argumentEdit? text fileDir)
    ++ scan.specifiers.filterMap (r.specifierEdit? fileDir)

/-- A stylesheet of `fileDir` with the references `scan`, rebased, and what was replaced in it. -/
def rebaseScan (r : Rebaser) (text : String) (fileDir : Path) (scan : Scan) : String × OffsetMap :=
  let (content, map) := Edit.apply (r.edits text.toList fileDir scan) text.toList
  (String.ofList content, map)

def rebase (r : Rebaser) (text : String) (fileDir : Path) : String × OffsetMap :=
  r.rebaseScan text fileDir (Scan.ofText text)

end Rebaser

end StylesheetImports

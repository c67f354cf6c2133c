import StylesheetImports.Rebase.OffsetMap

set_option autoImplicit false

namespace StylesheetImports

structure Edit where
  span : Span
  replacement : List Char
  deriving DecidableEq

namespace Edit

def sorted (edits : List Edit) : List Edit :=
  edits.mergeSort (fun a b => a.span.start <= b.span.start)

def applyFrom (text : List Char) : Nat -> OffsetMap -> List Edit -> List Char × OffsetMap
  | cursor, map, [] => (Utf8.slice { start := cursor, stop := Utf8.size text } text, map)
  | cursor, map, e :: edits =>
    if e.span.start < cursor || Utf8.size text < e.span.stop then applyFrom text cursor map edits
    else
      let before := Utf8.slice { start := cursor, stop := e.span.start } text
      let (after, map) :=
        applyFrom text e.span.stop (map.push e.span (Utf8.size e.replacement)) edits
      (before ++ e.replacement ++ after, map)

def apply (edits : List Edit) (text : List Char) : List Char × OffsetMap :=
  applyFrom text 0 .empty (sorted edits)

end Edit

end StylesheetImports

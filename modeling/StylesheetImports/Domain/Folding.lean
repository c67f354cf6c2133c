import StylesheetImports.Domain.FoldingTable
import StylesheetImports.Text.Composition

set_option autoImplicit false

namespace StylesheetImports

namespace Domain

def refused : List CodeRange :=
  CodeRange.readAll refusedText

def dropped : List CodeRange :=
  CodeRange.readAll droppedText

def shifted : List (CodeRange × Nat) :=
  CodeRange.readTable shiftedText

def alternating : List (CodeRange × Nat) :=
  CodeRange.readTable alternatingText

def spelledIn (next : Nat) : List (List Char) -> List (Nat × List Char)
  | [] => []
  | word :: more =>
    let (n, chars) := match pieces (· = '=') word with
      | [point, chars] => (CodeRange.number point, chars)
      | _ => (next, word)
    (n, (pieces (· = '+') chars).map (fun digits => Char.ofNat (CodeRange.number digits))) ::
      spelledIn (n + 1) more

def spelled : List (Nat × List Char) :=
  spelledIn 0 (words spelledText)

def shift? (table : List (CodeRange × Nat)) (step : Nat) (c : Char) : Option Char :=
  (table.find? (fun (range, _) => range.contains c && (c.toNat - range.first) % step = 0)).map
    (fun (range, target) => Char.ofNat (target + (c.toNat - range.first)))

def fold? (c : Char) : Option (List Char) :=
  if c.toNat < 0x80 then some [c.toLower]
  else if refused.any (·.contains c) then none
  else if dropped.any (·.contains c) then some []
  else
    match shift? shifted 1 c with
    | some d => some [d]
    | none =>
      match shift? alternating 2 c with
      | some d => some [d]
      | none => some ((spelled.lookup c.toNat).getD [c])

def folded? (text : List Char) : Option (List Char) :=
  (text.mapM fold?).map (fun parts => composed parts.flatten)

end Domain

end StylesheetImports

import Mathlib.Data.List.Nodup
import StylesheetImports.Proofs.Rebase.Tracing
import StylesheetImports.Proofs.Stylesheet.Reading

set_option autoImplicit false

namespace StylesheetImports

open Lexeme Utf8

namespace Token

def Filled (t : Token) : Prop :=
  t.text = [] -> t.kind = .plain ∨ t.kind = .argument []

theorem filled_of_mem_tokensFrom {afterIdent : Bool} {text : List Char} :
    ∀ t ∈ tokensFrom afterIdent text, t.Filled := by
  intro t mem empty
  rcases exists_of_mem_tokensFrom mem with ⟨text, rfl⟩ | ⟨c, rest, closing, more, read⟩ | ⟨_, listed, after, read⟩
  · exact .inl rfl
  · obtain ⟨⟨value, kind, same⟩, _⟩ := argument?_shape read
    exact .inr (same empty ▸ kind)
  · exact absurd empty (specifier?_append read).2

end Token

namespace Rebaser

def packed (fileDir : Path) (specifier : List Char) : PackedSpecifier :=
  { origin := fileDir, specifier := String.ofList specifier }

variable (r : Rebaser) (fileDir : Path)

-- The new text of a token of a stylesheet in `fileDir`; there is none when it stays.
def newText? (t : Token) : Option (List Char) :=
  match t.kind with
  | .plain => none
  | .argument value =>
    if Reference.isCall t.text then none
    else
      (Reference.rebase? value fileDir r.entryDir).bind fun new =>
        if t.text = new then none else some new
  | .specifier value _ =>
    if r.isPackage (String.ofList value) then some (packed fileDir value).quoted.toList else none

/-- The text that the tokens of a stylesheet in `fileDir` make up once it is rebased. -/
def rewritten (tokens : List Token) : List Char :=
  tokens.flatMap fun t => (r.newText? fileDir t).getD t.text

-- The edits of tokens of which the first one starts at the byte `start`.
def tokenEdits : Nat -> List Token -> List Edit
  | _, [] => []
  | start, t :: tokens =>
    let span := { start, stop := start + size t.text }
    match r.newText? fileDir t with
    | none => tokenEdits span.stop tokens
    | some replacement => { span, replacement } :: tokenEdits span.stop tokens

variable {r fileDir}

@[simp] theorem newText?_plain (text : List Char) : r.newText? fileDir (.plain text) = none := rfl

@[simp] theorem rewritten_nil : r.rewritten fileDir [] = [] := rfl

@[simp] theorem rewritten_cons (t : Token) (tokens : List Token) :
    r.rewritten fileDir (t :: tokens) = (r.newText? fileDir t).getD t.text ++ r.rewritten fileDir tokens := rfl

@[simp] theorem rewritten_append (a b : List Token) :
    r.rewritten fileDir (a ++ b) = r.rewritten fileDir a ++ r.rewritten fileDir b := by
  simp [rewritten]

theorem argumentEdit?_eq {text before after : List Char} {t : Token} {value : List Char}
    (whole : text = before ++ (t.text ++ after)) (kind : t.kind = .argument value) :
    r.argumentEdit? text fileDir
        { span := { start := size before, stop := size before + size t.text }, value := String.ofList value } =
      (r.newText? fileDir t).map fun new =>
        { span := { start := size before, stop := size before + size t.text }, replacement := new } := by
  have written : slice? { start := size before, stop := size before + size t.text } text = some t.text := by
    rw [whole]
    exact slice?_append _ _ _ rfl rfl
  simp only [argumentEdit?, newText?, written, kind, Option.map_some, Option.getD_some, String.toList_ofList,
    Option.some.injEq]
  split
  next => rfl
  next =>
    cases Reference.rebase? value fileDir r.entryDir with
    | none => rfl
    | some new =>
      simp only [Option.bind_some]
      split <;> rfl

theorem specifierEdit?_eq {span : Span} {t : Token} {value : List Char} {fromImport : Bool}
    (kind : t.kind = .specifier value fromImport) :
    r.specifierEdit? fileDir { span, value := String.ofList value, fromImport } =
      (r.newText? fileDir t).map fun new => { span, replacement := new } := by
  simp only [specifierEdit?, newText?, kind]
  split <;> rfl

theorem edits_perm {text before : List Char} {tokens : List Token}
    (whole : text = before ++ Token.source tokens) :
    (r.edits text fileDir (Scan.ofTokens (size before) tokens)).Perm
      (r.tokenEdits fileDir (size before) tokens) := by
  induction tokens generalizing before with
  | nil => exact List.Perm.refl []
  | cons t tokens ih =>
    have whole' : text = (before ++ t.text) ++ Token.source tokens := by simp [whole]
    have later := ih whole'
    rw [size_append] at later
    cases kind : t.kind with
    | plain =>
      have none : r.newText? fileDir t = none := by rw [newText?, kind]
      rw [Scan.ofTokens, tokenEdits, none, kind]
      exact later
    | argument value =>
      rw [Scan.ofTokens, tokenEdits, kind]
      simp only [edits, List.filterMap_cons, argumentEdit?_eq (Token.source_cons t tokens ▸ whole) kind]
        at later ⊢
      cases r.newText? fileDir t with
      | none => exact later
      | some new => exact later.cons _
    | specifier value fromImport =>
      -- The edit of a specifier comes behind the edits of all later arguments.
      rw [Scan.ofTokens, tokenEdits, kind]
      simp only [edits, List.filterMap_cons, specifierEdit?_eq kind] at later ⊢
      cases r.newText? fileDir t with
      | none => exact later
      | some new => exact List.perm_middle.trans (later.cons _)

theorem start_le_of_mem_tokenEdits {start : Nat} {tokens : List Token} {e : Edit}
    (h : e ∈ r.tokenEdits fileDir start tokens) : start <= e.span.start := by
  induction tokens generalizing start with
  | nil => simp [tokenEdits] at h
  | cons t tokens ih =>
    rw [tokenEdits] at h
    split at h
    next => exact Nat.le_trans (Nat.le_add_right _ _) (ih h)
    next =>
      rcases List.mem_cons.mp h with rfl | h
      · exact Nat.le_refl _
      · exact Nat.le_trans (Nat.le_add_right _ _) (ih h)

theorem text_ne_nil_of_newText? {t : Token} {new : List Char} (filled : t.Filled)
    (h : r.newText? fileDir t = some new) : t.text ≠ [] := by
  intro empty
  rcases filled empty with kind | kind
  · simp [newText?, kind] at h
  · rw [newText?, kind] at h
    simp only at h
    split at h
    next => simp at h
    next => simp [Reference.rebase?, Reference.isSkipped] at h

theorem tokenEdits_ascending {start : Nat} {tokens : List Token} (filled : ∀ t ∈ tokens, t.Filled) :
    (r.tokenEdits fileDir start tokens).Pairwise fun a b => a.span.start < b.span.start := by
  induction tokens generalizing start with
  | nil => exact List.Pairwise.nil
  | cons t tokens ih =>
    have filledTail : ∀ u ∈ tokens, u.Filled := fun u hu => filled u (List.mem_cons_of_mem _ hu)
    rw [tokenEdits]
    split
    next => exact ih filledTail
    next new edited =>
      refine List.pairwise_cons.mpr ⟨fun e he => ?_, ih filledTail⟩
      have behind := start_le_of_mem_tokenEdits he
      have some := text_ne_nil_of_newText? (filled t List.mem_cons_self) edited
      have pos : 0 < size t.text := Nat.pos_of_ne_zero fun zero => some (eq_nil_of_size_eq_zero zero)
      exact Nat.lt_of_lt_of_le (Nat.lt_add_of_pos_right pos) behind

theorem sorted_edits {text : List Char} {tokens : List Token} (whole : text = Token.source tokens)
    (filled : ∀ t ∈ tokens, t.Filled) :
    Edit.sorted (r.edits text fileDir (Scan.ofTokens 0 tokens)) = r.tokenEdits fileDir 0 tokens := by
  have ascending : (r.tokenEdits fileDir 0 tokens).Pairwise fun a b => a.span.start < b.span.start :=
    tokenEdits_ascending filled
  have whole : text = [] ++ Token.source tokens := whole
  -- Starts are all different, so sorting by the start leaves one order only.
  have perm : (Edit.sorted (r.edits text fileDir (Scan.ofTokens 0 tokens))).Perm
      (r.tokenEdits fileDir 0 tokens) :=
    (List.mergeSort_perm _ _).trans (edits_perm whole)
  refine perm.eq_of_pairwise ?_ (Edit.sorted_ascending _) (ascending.imp Nat.le_of_lt)
  intro a b ha hb hab hba
  have starts : ((r.tokenEdits fileDir 0 tokens).map fun e => e.span.start).Nodup :=
    List.pairwise_map.mpr (ascending.imp Nat.ne_of_lt)
  exact List.inj_on_of_nodup_map starts (perm.mem_iff.mp ha) hb (Nat.le_antisymm hab hba)

theorem applyFrom_tokenEdits {text before kept : List Char} {tokens : List Token} {cursor start : Nat}
    {map : OffsetMap} (whole : text = before ++ (kept ++ Token.source tokens))
    (hcursor : size before = cursor) (hstart : start = cursor + size kept) :
    (Edit.applyFrom text cursor map (r.tokenEdits fileDir start tokens)).1 =
        kept ++ r.rewritten fileDir tokens ∧
      (Edit.applyFrom text cursor map (r.tokenEdits fileDir start tokens)).2.length =
        map.length + (r.tokenEdits fileDir start tokens).length := by
  -- Along the tokens: `kept` gathers those that stay since the last edit, which ended at the cursor.
  induction tokens generalizing before kept cursor start map with
  | nil =>
    subst whole
    rw [tokenEdits, Edit.applyFrom, slice_to_end before _ hcursor.symm rfl]
    simp
  | cons t tokens ih =>
    rw [tokenEdits]
    split
    next none =>
      have whole' : text = before ++ ((kept ++ t.text) ++ Token.source tokens) := by simp [whole]
      have start' : start + size t.text = cursor + size (kept ++ t.text) := by
        rw [hstart, size_append, Nat.add_assoc]
      rw [(ih whole' hcursor start').1, (ih whole' hcursor start').2]
      simp [none]
    next new edited =>
      have size_text : size text = cursor + (size kept + (size t.text + size (Token.source tokens))) := by
        simp [whole, hcursor]
      have made : (start < cursor || size text < start + size t.text) = false := by
        simp only [Bool.or_eq_false_iff, decide_eq_false_iff_not]
        omega
      have whole' : text = (before ++ (kept ++ t.text)) ++ ([] ++ Token.source tokens) := by simp [whole]
      have before_ : slice { start := cursor, stop := start } text = kept := by
        rw [whole]
        exact slice_append _ _ _ hcursor.symm (by rw [hstart, hcursor])
      have cursor' : size (before ++ (kept ++ t.text)) = start + size t.text := by
        simp [hcursor, hstart, Nat.add_assoc]
      have later := @ih _ [] _ _ (map.push { start, stop := start + size t.text } (size new)) whole' cursor'
        (Nat.add_zero _).symm
      rw [Edit.applyFrom]
      simp only [made, before_, Bool.false_eq_true, ↓reduceIte, later]
      constructor
      · simp [edited]
      · simp only [OffsetMap.length, OffsetMap.push, List.length_append, List.length_cons]
        exact Nat.add_right_comm _ _ _

theorem rebase_eq_rewritten (r : Rebaser) (text : String) (fileDir : Path) :
    (r.rebase text fileDir).1.toList = r.rewritten fileDir (Token.ofText text.toList) ∧
      (r.rebase text fileDir).2.length = (r.tokenEdits fileDir 0 (Token.ofText text.toList)).length := by
  have whole : text.toList = Token.source (Token.ofText text.toList) := (Token.source_ofText _).symm
  have filled : ∀ t ∈ Token.ofText text.toList, t.Filled := Token.filled_of_mem_tokensFrom
  have whole' : text.toList = [] ++ ([] ++ Token.source (Token.ofText text.toList)) := whole
  have made := @applyFrom_tokenEdits r fileDir _ _ _ _ 0 0 .empty whole' rfl rfl
  simpa [rebase, rebaseScan, Edit.apply, Scan.ofText, sorted_edits whole filled, OffsetMap.empty,
    OffsetMap.length] using made

theorem tokenEdits_eq_nil_iff {start : Nat} {tokens : List Token} :
    r.tokenEdits fileDir start tokens = [] ↔ ∀ t ∈ tokens, r.newText? fileDir t = none := by
  induction tokens generalizing start with
  | nil => simp [tokenEdits]
  | cons t tokens ih =>
    rw [tokenEdits]
    split
    next none => simp [none, ih]
    next new edited => simp [edited]

theorem rebase_eq_self_iff (r : Rebaser) (text : String) (fileDir : Path) :
    r.rebase text fileDir = (text, .empty) ↔
      ∀ t ∈ Token.ofText text.toList, r.newText? fileDir t = none := by
  constructor
  · intro same
    have listed := (rebase_eq_rewritten r text fileDir).2
    rw [same] at listed
    exact tokenEdits_eq_nil_iff.mp (List.length_eq_zero_iff.mp listed.symm)
  · intro none
    have noEdits : r.tokenEdits fileDir 0 (Token.ofText text.toList) = [] := tokenEdits_eq_nil_iff.mpr none
    have whole : text.toList = Token.source (Token.ofText text.toList) := (Token.source_ofText _).symm
    have filled : ∀ t ∈ Token.ofText text.toList, t.Filled := Token.filled_of_mem_tokensFrom
    have kept : slice { start := 0, stop := size text.toList } text.toList = text.toList :=
      slice_to_end [] _ rfl rfl
    rw [rebase, rebaseScan, Edit.apply, Scan.ofText, sorted_edits whole filled, noEdits, Edit.applyFrom, kept]
    simp

end Rebaser

end StylesheetImports

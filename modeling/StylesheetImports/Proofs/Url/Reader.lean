import StylesheetImports.Proofs.PackedSpecifier
import StylesheetImports.Url.File

set_option autoImplicit false

namespace StylesheetImports

namespace Url

theorem visible_of_printed {text : List Char} (h : ∀ c ∈ text, 0x20 < c.toNat) : visible text = text := by
  rw [visible, List.filter_eq_self]
  intro c mem
  have printed := h c mem
  rw [Bool.not_eq_true', isIgnored, Bool.or_eq_false_iff, Bool.or_eq_false_iff]
  refine ⟨⟨?_, ?_⟩, ?_⟩ <;> rw [decide_eq_false_iff_not] <;> rintro rfl <;> exact absurd printed (by decide)

theorem trim_of_ends {text : List Char} (first : ∀ c, text.head? = some c -> 0x20 < c.toNat)
    (last : ∀ c, text.getLast? = some c -> 0x20 < c.toNat) : trim text = text := by
  have kept (l : List Char) (printed : ∀ c, l.head? = some c -> 0x20 < c.toNat) :
      l.dropWhile (fun c => decide (c.toNat <= 0x20)) = l := by
    cases l with
    | nil => rfl
    | cons c l =>
      have first : ¬ c.toNat <= 0x20 := Nat.not_le.mpr (printed c rfl)
      rw [List.dropWhile_cons_of_neg (by simpa using first)]
  rw [trim]
  simp only [kept text first, kept text.reverse fun c h => last c (by rwa [List.getLast?_eq_head?_reverse]),
    List.reverse_reverse]

theorem trim_of_printed {text : List Char} (h : ∀ c ∈ text, 0x20 < c.toNat) : trim text = text :=
  trim_of_ends (fun c first => h c (List.mem_of_mem_head? first)) fun c last => h c (List.mem_of_getLast? last)

theorem isFile_fileAfterSlashes {text : List Char} {u : Url} (read : fileAfterSlashes text = .ok u) :
    u.isFile = true := by
  unfold fileAfterSlashes at read
  dsimp only at read
  split at read
  next => rw [← Except.ok.inj read]; rfl
  next =>
    cases server : fileServer? (visible (authorityText true text).1) with
    | error e => rw [server] at read; cases read
    | ok authority =>
      rw [server] at read
      simp only [Bind.bind, Except.bind] at read
      split at read <;> rw [← Except.ok.inj read] <;> rfl

theorem isFile_readFile {text : List Char} {base u : Url} (file : base.isFile = true)
    (read : readFile text (some base) = .ok u) : u.isFile = true := by
  unfold readFile at read
  split at read
  next => rw [← Except.ok.inj read]; exact file
  next =>
    split at read
    next =>
      split at read
      next => exact isFile_fileAfterSlashes read
      next => rw [← Except.ok.inj read]; rfl
    next =>
      dsimp only at read
      split at read
      next => rw [← Except.ok.inj read]; exact file
      next =>
        split at read
        next => rw [← Except.ok.inj read]; rfl
        next => split at read <;> rw [← Except.ok.inj read] <;> rfl

theorem isFile_join {base u : Url} (file : base.isFile = true) {text : String} {e : Error}
    (alone : parse text = .error e) (joined : base.join text = .ok u) : u.isFile = true := by
  unfold parse read at alone
  unfold join read at joined
  dsimp only at alone joined
  cases written : scheme? (visible (trim text.toList)) with
  | some found =>
    obtain ⟨scheme, rest⟩ := found
    rw [written] at alone joined
    dsimp only at alone joined
    by_cases same : scheme = fileScheme
    next =>
      have kept : (some base).filter isFile = some base := by simp [file]
      rw [if_pos same, kept] at joined
      exact isFile_readFile file joined
    next =>
      -- With another scheme nothing is taken from the base, so the text would be a locator alone.
      have apart : base.scheme ≠ scheme := by
        rw [isFile, decide_eq_true_eq] at file
        rw [file]
        exact Ne.symm same
      have dropped (slashes : Nat) : (some base).filter (fun b => b.scheme = scheme && slashes < 2) = none := by
        simp [apart]
      rw [if_neg same] at alone joined
      simp only [dropped, Option.filter_none] at alone joined
      rw [alone] at joined
      cases joined
  | none =>
    rw [written] at joined
    dsimp only at joined
    split at joined
    next => rw [← Except.ok.inj joined]; exact file
    next => cases joined
    next => rw [if_pos file] at joined; exact isFile_readFile file joined

end Url

namespace PackedSpecifier

theorem printed_of_mem_encode {p : PackedSpecifier} {c : Char} (h : c ∈ p.encode.toList) :
    0x20 < c.toNat := by
  rcases mem_encode h with encoded | mem
  · exact Form.printed_of_isEncoded encoded
  · have table : ∀ d ∈ marker ++ originKey ++ specifierKey ++ ['=', '&'], 0x20 < d.toNat :=
      List.forall_iff_forall_mem.mp (by decide)
    exact table c mem

theorem ofSpecifier?_encode (p : PackedSpecifier) : Url.ofSpecifier? p.encode = none := by
  have printed : ∀ c ∈ p.encode.toList, 0x20 < c.toNat := fun c mem => printed_of_mem_encode mem
  obtain ⟨rest, begins⟩ : ∃ rest, p.encode.toList = marker ++ rest := ⟨_, toList_encode p⟩
  have scheme : Url.scheme? (marker ++ rest) = some ("sassbase-pkg".toList, '?' :: rest) := rfl
  have read : ∃ u, Url.parse p.encode = .ok u ∧ u.isFile = false := by
    rw [Url.parse, Url.read]
    simp only [Url.trim_of_printed printed, Url.visible_of_printed printed]
    rw [begins, scheme]
    exact ⟨_, rfl, rfl⟩
  obtain ⟨u, parsed, noFile⟩ := read
  have relative : (Path.ofString p.encode).isAbsolute = false := by
    rw [Path.isAbsolute, Path.ofString, begins]
    rfl
  rw [Url.ofSpecifier?, parsed]
  simp [noFile, Url.ofPath?, relative]

end PackedSpecifier

end StylesheetImports

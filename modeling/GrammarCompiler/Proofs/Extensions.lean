import GrammarCompiler.CommandLine.FileSystem

/-!
Paths that differ in the extension of their file names. A path is looked up
name by name, so which place it means is decided in the end by its file name,
the text behind its last slash; and giving it another extension changes that
name and nothing else. The name stays what it was only if it had the extension
before.
-/

namespace GrammarCompiler.CommandLine

/-! ### The last occurrence of a character -/

section

variable {c : Char} {text before after : List Char}

theorem splitLast?_eq_none_iff : splitLast? c text = none ↔ c ∉ text := by
  induction text with
  | nil => simp [splitLast?]
  | cons x text ih =>
      rw [splitLast?, List.mem_cons, not_or]
      cases hsplit : splitLast? c text with
      | some pair =>
          have hmem : ¬ c ∉ text := fun hnot => by simp [ih.2 hnot] at hsplit
          simp [hmem]
      | none =>
          have hnot := ih.1 hsplit
          simp [hnot, eq_comm]

theorem splitLast?_append (before : List Char) (hafter : c ∉ after) :
    splitLast? c (before ++ c :: after) = some (before, after) := by
  induction before with
  | nil => simp [splitLast?, splitLast?_eq_none_iff.2 hafter]
  | cons x before ih => simp [splitLast?, ih]

theorem eq_append_of_splitLast? (h : splitLast? c text = some (before, after)) :
    text = before ++ c :: after ∧ c ∉ after := by
  induction text generalizing before with
  | nil => cases h
  | cons x text ih =>
      rw [splitLast?] at h
      cases hsplit : splitLast? c text with
      | some pair =>
          rw [hsplit] at h
          obtain ⟨rfl, rfl⟩ := Prod.mk.inj (Option.some.inj h)
          obtain ⟨htext, hafter⟩ := ih hsplit
          exact ⟨by rw [htext, List.cons_append], hafter⟩
      | none =>
          rw [hsplit] at h
          dsimp only at h
          split at h
          · next hx =>
              obtain ⟨rfl, rfl⟩ := Prod.mk.inj (Option.some.inj h)
              exact ⟨by rw [hx, List.nil_append], splitLast?_eq_none_iff.1 hsplit⟩
          · cases h

end

namespace Path

/-! ### File names -/

/-- The text behind the last slash. -/
def fileName (path : String) : List Char :=
  match splitLast? '/' path.toList with
  | none => path.toList
  | some (_, name) => name

/-- The file name is a stem with a dot and the extension behind it. A name that begins with its
last dot has no extension, and neither has one that would be left as a single dot. -/
def HasExtension (path extension : String) : Prop :=
  ∃ stem, stem ≠ [] ∧ stem ≠ ['.'] ∧ fileName path = stem ++ '.' :: extension.toList

section

variable {path : String} {text name : List Char}

/-- A path is its file name, or a folder with the file name behind a slash. -/
theorem fileName_cases (path : String) :
    '/' ∉ fileName path ∧
      (splitLast? '/' path.toList = none ∧ path.toList = fileName path ∨
        ∃ folder, splitLast? '/' path.toList = some (folder, fileName path) ∧
          path.toList = folder ++ '/' :: fileName path) := by
  rw [fileName]
  cases hsplit : splitLast? '/' path.toList with
  | none => exact ⟨splitLast?_eq_none_iff.1 hsplit, .inl ⟨rfl, rfl⟩⟩
  | some pair =>
      obtain ⟨hpath, hname⟩ := eq_append_of_splitLast? hsplit
      exact ⟨hname, .inr ⟨pair.1, rfl, hpath⟩⟩

theorem fileName_ofList (hname : '/' ∉ name) : fileName (String.ofList name) = name := by
  rw [fileName, String.toList_ofList, splitLast?_eq_none_iff.2 hname]

theorem fileName_ofList_append (folder : List Char) (hname : '/' ∉ name) :
    fileName (String.ofList (folder ++ '/' :: name)) = name := by
  rw [fileName, String.toList_ofList, splitLast?_append folder hname]

theorem pieces_of_not_mem (h : '/' ∉ text) : pieces text = [text] := by
  induction text with
  | nil => rfl
  | cons c text ih =>
      obtain ⟨hc, htext⟩ : '/' ≠ c ∧ '/' ∉ text := by simpa using h
      rw [pieces, if_neg hc.symm, ih htext]

theorem pieces_ne_nil (text : List Char) : pieces text ≠ [] := by
  cases text with
  | nil => simp [pieces]
  | cons c text =>
      rw [pieces]
      split
      · exact List.cons_ne_nil _ _
      · split <;> exact List.cons_ne_nil _ _

theorem pieces_append (folder text : List Char) :
    pieces (folder ++ '/' :: text) = pieces folder ++ pieces text := by
  induction folder with
  | nil => simp [pieces]
  | cons c folder ih =>
      rw [List.cons_append, pieces, pieces, ih]
      split
      · rfl
      · cases hpieces : pieces folder with
        | nil => exact absurd hpieces (pieces_ne_nil folder)
        | cons piece more => rfl

/-- The last name of a path is its file name, unless nothing stands behind the last slash. -/
theorem getLast?_names (h : fileName path ≠ []) :
    (names path).getLast? = some (String.ofList (fileName path)) := by
  obtain ⟨hslash, ⟨-, hpath⟩ | ⟨folder, -, hpath⟩⟩ := fileName_cases path
  · rw [names, hpath, pieces_of_not_mem hslash]
    simp [h]
  · rw [names, hpath, pieces_append, pieces_of_not_mem hslash]
    simp [h]

theorem fileName_ne_nil (hpath : path ≠ "") (hslash : endsInSlash path = false) :
    fileName path ≠ [] := by
  intro hname
  obtain ⟨-, ⟨-, htext⟩ | ⟨folder, -, htext⟩⟩ := fileName_cases path
  · exact hpath (String.toList_inj.1 (htext.trans hname))
  · rw [endsInSlash, htext, hname] at hslash
    simp at hslash

end

/-! ### Extensions -/

section

variable {path extension : String} {ext name stem after : List Char}

theorem stem?_append (hstem : stem ≠ []) (hafter : '.' ∉ after) :
    stem? (stem ++ '.' :: after) = some stem := by
  rw [stem?, splitLast?_append stem hafter]
  cases stem with
  | nil => exact absurd rfl hstem
  | cons c stem => rfl

theorem eq_append_of_stem? (h : stem? name = some stem) :
    stem ≠ [] ∧ ∃ after, name = stem ++ '.' :: after := by
  rw [stem?] at h
  split at h
  · cases h
  · cases h
  · next after hstem hsplit =>
      obtain rfl := Option.some.inj h
      exact ⟨fun hnil => hstem hnil, after, (eq_append_of_splitLast? hsplit).1⟩

theorem renameExtension_ne_nil (ext name : List Char) : renameExtension ext name ≠ [] := by
  rw [renameExtension]
  split <;> simp

theorem not_mem_renameExtension {c : Char} (hdot : c ≠ '.') (hext : c ∉ ext) (hname : c ∉ name) :
    c ∉ renameExtension ext name := by
  rw [renameExtension]
  split
  · simp [hdot, hext, hname]
  · simp [hdot]
  · next stem _ hstem =>
      obtain ⟨-, after, rfl⟩ := eq_append_of_stem? hstem
      have hfront : c ∉ stem := fun hc => hname (List.mem_append_left _ hc)
      simp [hdot, hext, hfront]

theorem renameExtension_append (hext : '.' ∉ ext) (hstem : stem ≠ []) (hdot : stem ≠ ['.']) :
    renameExtension ext (stem ++ '.' :: ext) = stem ++ '.' :: ext := by
  rw [renameExtension, stem?_append hstem hext]
  split
  · next hnone => cases hnone
  · next hsome => exact absurd (Option.some.inj hsome) hdot
  · next hsome => rw [Option.some.inj hsome]

/-- A name that does not have the extension changes, unless it is that of the parent
directory. -/
theorem renameExtension_ne (hparent : name ≠ ['.', '.'])
    (h : ∀ stem, stem ≠ [] → stem ≠ ['.'] → name ≠ stem ++ '.' :: ext) :
    renameExtension ext name ≠ name := by
  rw [renameExtension]
  split
  · simp
  · exact hparent.symm
  · next stem hdot hstem => exact (h stem (eq_append_of_stem? hstem).1 hdot).symm

theorem fileName_withExtension (hslash : '/' ∉ extension.toList) :
    fileName (withExtension path extension) = renameExtension extension.toList (fileName path) := by
  obtain ⟨hname, hcases⟩ := fileName_cases path
  have hrenamed := not_mem_renameExtension (by decide) hslash hname
  rcases hcases with ⟨hsplit, hpath⟩ | ⟨folder, hsplit, -⟩
  · rw [withExtension, hsplit]
    dsimp only
    rw [hpath, fileName_ofList hrenamed]
  · rw [withExtension, hsplit]
    exact fileName_ofList_append folder hrenamed

theorem getLast?_names_withExtension (path : String) (hslash : '/' ∉ extension.toList) :
    (names (withExtension path extension)).getLast? =
      some (String.ofList (renameExtension extension.toList (fileName path))) := by
  rw [← fileName_withExtension hslash]
  refine getLast?_names ?_
  rw [fileName_withExtension hslash]
  exact renameExtension_ne_nil _ _

theorem withExtension_eq_self (hdot : '.' ∉ extension.toList)
    (h : HasExtension path extension) : withExtension path extension = path := by
  obtain ⟨stem, hstem, hsingle, hpath⟩ := h
  have hself := renameExtension_append hdot hstem hsingle
  rw [← hpath] at hself
  obtain ⟨-, ⟨hsplit, htext⟩ | ⟨folder, hsplit, htext⟩⟩ := fileName_cases path
  · rw [withExtension, hsplit]
    dsimp only
    rw [htext, hself, ← htext, String.ofList_toList]
  · rw [withExtension, hsplit]
    dsimp only
    rw [hself, ← htext, String.ofList_toList]

end

end Path

end GrammarCompiler.CommandLine

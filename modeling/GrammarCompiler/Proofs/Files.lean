import GrammarCompiler.CommandLine.Host

/-!
What writing under a path does to a file system. At most one location changes,
namely the one that the path means, and what was a directory before stays one.
Hence the path means the same place afterwards and reads back what was written.
-/

namespace GrammarCompiler.CommandLine

namespace FileSystem

variable {fs : FileSystem} {location other working : Location} {entry : Entry} {path : String}

theorem lookup_replace (entries : List (Location × Entry)) :
    (replace location entry entries).lookup other =
      if other = location then some entry else entries.lookup other := by
  induction entries with
  | nil =>
      rw [replace, List.lookup_cons, List.lookup_nil]
      split <;> simp_all
  | cons head rest ih =>
      obtain ⟨l, e⟩ := head
      by_cases hl : l = location
      · subst hl
        rw [replace, if_pos rfl, List.lookup_cons, List.lookup_cons]
        split <;> simp_all
      · rw [replace, if_neg hl, List.lookup_cons, List.lookup_cons, ih]
        split <;> simp_all

theorem entry?_set_self (hroot : location ≠ []) :
    FileSystem.entry? (fs.set location entry) location = some entry := by
  rw [FileSystem.entry?, if_neg hroot]
  exact (lookup_replace fs.entries).trans (if_pos rfl)

theorem entry?_set_of_ne (hne : other ≠ location) :
    FileSystem.entry? (fs.set location entry) other = fs.entry? other := by
  rw [FileSystem.entry?, FileSystem.entry?]
  split
  · rfl
  · exact (lookup_replace fs.entries).trans (if_neg hne)

/-! ### Resolution -/

theorem find_eq_ok_iff {found : Option Entry} :
    fs.find location = .ok found ↔
      ¬ maxName < (location.getLastD "").utf8ByteSize ∧ fs.entry? location = found := by
  rw [find]
  split <;> simp_all

theorem find_set_of_ne (hne : other ≠ location) :
    (fs.set location entry).find other = fs.find other := by
  rw [find, find, entry?_set_of_ne hne]

theorem find_set_of_directory (hfree : fs.entry? location ≠ some .directory)
    (h : fs.find other = .ok (some .directory)) :
    (fs.set location entry).find other = .ok (some .directory) := by
  obtain ⟨hlength, hentry⟩ := find_eq_ok_iff.1 h
  have hne : other ≠ location := fun heq => hfree (heq ▸ hentry)
  exact find_eq_ok_iff.2 ⟨hlength, (entry?_set_of_ne hne).trans hentry⟩

theorem enter_set {name : String} {next : Location} (hfree : fs.entry? location ≠ some .directory)
    (h : fs.enter other name = .ok next) : (fs.set location entry).enter other name = .ok next := by
  rw [enter] at h ⊢
  split at h
  · next hdot => rwa [if_pos hdot]
  · next hdot =>
      rw [if_neg hdot]
      split at h
      · next hparent => rwa [if_pos hparent]
      · next hparent =>
          rw [if_neg hparent]
          split at h
          · cases h
          · cases h
          · next hfind => rwa [find_set_of_directory hfree hfind]
          · cases h

theorem enterAll_set {names : List String} {folder : Location}
    (hfree : fs.entry? location ≠ some .directory) (h : fs.enterAll other names = .ok folder) :
    (fs.set location entry).enterAll other names = .ok folder := by
  induction names generalizing other with
  | nil => exact h
  | cons name names ih =>
      rw [enterAll] at h ⊢
      split at h
      · cases h
      · next next hnext =>
          rw [enter_set hfree hnext]
          exact ih h

/-- A path that means something goes on to mean it. -/
theorem resolve_set {target : Target} (hfree : fs.entry? location ≠ some .directory)
    (h : fs.resolve working path = .ok target) :
    (fs.set location entry).resolve working path = .ok target := by
  rw [resolve] at h ⊢
  split at h
  · cases h
  · next hempty =>
      rw [if_neg hempty]
      split at h
      · cases h
      · next hlength =>
          rw [if_neg hlength]
          dsimp only at h ⊢
          split at h
          · exact h
          · split at h
            · cases h
            · next hfolder => rwa [enterAll_set hfree hfolder]

/-- The last name of a path that means a place in a directory is the name of that place, and it
leads to no parent. -/
theorem exists_last_of_resolve (h : fs.resolve working path = .ok (.name location)) :
    path ≠ "" ∧ ∃ last, (Path.names path).getLast? = some last ∧ location.getLast? = some last ∧
      last ≠ ".." := by
  revert h
  fun_cases resolve fs working path <;> intro h <;> cases h
  next hempty hlength base names last hlast folder hfolder hdot hparent =>
    exact ⟨fun hpath => hempty (by rw [hpath]; rfl), last, hlast, List.getLast?_concat, hparent⟩

/-- A name is looked up in a directory, so that it is never the root. -/
theorem ne_nil_of_resolve (h : fs.resolve working path = .ok (.name location)) :
    location ≠ [] := by
  obtain ⟨-, last, -, hlast, -⟩ := exists_last_of_resolve h
  rintro rfl
  cases hlast

/-! ### Reading -/

/-- What is read is the content of a file, or nothing at a device. -/
theorem read_eq_ok {content : ByteArray} (h : fs.read working path = .ok content) :
    ∃ location, fs.resolve working path = .ok (.name location) ∧
      Path.endsInSlash path = false ∧ (fs.find location = .ok (some (.file content)) ∨
        content = ByteArray.empty) := by
  revert h
  fun_cases read fs working path <;> intro h <;> cases h
  · next location hresolve hslash hfind =>
      exact ⟨location, hresolve, Bool.eq_false_iff.2 hslash, .inl hfind⟩
  · next location hresolve device hfind hslash hattached =>
      exact ⟨location, hresolve, Bool.eq_false_iff.2 hslash, .inr rfl⟩

/-- A file elsewhere does not show. -/
theorem read_set_of_ne (hfree : fs.entry? location ≠ some .directory)
    (hresolve : fs.resolve working path = .ok (.name other)) (hne : other ≠ location) :
    (fs.set location entry).read working path = fs.read working path := by
  rw [read, read, resolve_set hfree hresolve, hresolve]
  simp only [find_set_of_ne hne]

/-! ### Writing -/

/-- A file takes content only under a name that is no directory. -/
theorem sink_eq_file (h : fs.sink working path = .ok (.file location)) :
    fs.resolve working path = .ok (.name location) ∧ Path.endsInSlash path = false ∧
      ¬ maxName < (location.getLastD "").utf8ByteSize ∧
      fs.entry? location ≠ some .directory := by
  revert h
  fun_cases sink fs working path <;> intro h <;> cases h
  · next hslash content hresolve hfind =>
      obtain ⟨hlength, hentry⟩ := find_eq_ok_iff.1 hfind
      exact ⟨hresolve, Bool.eq_false_iff.2 hslash, hlength, by simp [hentry]⟩
  · next hslash hresolve hfind =>
      obtain ⟨hlength, hentry⟩ := find_eq_ok_iff.1 hfind
      exact ⟨hresolve, Bool.eq_false_iff.2 hslash, hlength, by simp [hentry]⟩

/-- What has content can be written to. -/
theorem exists_sink_of_read {content : ByteArray} (h : fs.read working path = .ok content)
    (hcontent : content ≠ ByteArray.empty) :
    ∃ location, fs.sink working path = .ok (.file location) := by
  obtain ⟨location, hresolve, hslash, hfind | hempty⟩ := read_eq_ok h
  · refine ⟨location, ?_⟩
    rw [sink, hresolve]
    simp only [hslash, hfind]
    rfl
  · exact absurd hempty hcontent

/-- What was written is read back under the same path. -/
theorem read_set_of_sink {content : ByteArray} (h : fs.sink working path = .ok (.file location)) :
    (fs.set location (.file content)).read working path = .ok content := by
  obtain ⟨hresolve, hslash, hlength, hfree⟩ := sink_eq_file h
  have hfind : (fs.set location (.file content)).find location = .ok (some (.file content)) :=
    find_eq_ok_iff.2 ⟨hlength, entry?_set_self (ne_nil_of_resolve hresolve)⟩
  rw [read, resolve_set hfree hresolve]
  simp only [hfind, hslash]
  rfl

end FileSystem

namespace World

variable {w w₁ w' : World} {path text : String}

/-- A write that succeeds gives a file its content, or hands the text to a device, in which case
at most the standard output grows. -/
theorem write_cases (h : w.write path text = .ok w₁) :
    (∃ location, w.files.sink w.working path = .ok (.file location) ∧
      w₁ = { w with files := w.files.set location (.file text.toUTF8) }) ∨
    (∃ device, w.files.sink w.working path = .ok (.device device)) ∧
      ∃ printed, w₁ = { w with printed := printed } := by
  rw [write] at h
  split at h
  · cases h
  · next sink hsink =>
      revert h
      fun_cases deliver w text sink <;> intro h <;> cases h
      · exact .inl ⟨_, hsink, rfl⟩
      · exact .inr ⟨⟨_, hsink⟩, w.printed, rfl⟩
      · exact .inr ⟨⟨_, hsink⟩, _, rfl⟩

/-- Only the location that the path means can change. -/
theorem entry?_of_write {location : Location} (h : w.write path text = .ok w₁)
    (hne : w.files.resolve w.working path ≠ .ok (.name location)) :
    w₁.files.entry? location = w.files.entry? location := by
  rcases write_cases h with ⟨target, hsink, rfl⟩ | ⟨-, printed, rfl⟩
  · refine FileSystem.entry?_set_of_ne fun heq => hne ?_
    rw [heq]
    exact (FileSystem.sink_eq_file hsink).1
  · rfl

theorem read_of_write (h : w.write path text = .ok w₁)
    (hfile : ∀ device, w.files.sink w.working path ≠ .ok (.device device)) :
    w₁.files.read w.working path = .ok text.toUTF8 := by
  rcases write_cases h with ⟨target, hsink, rfl⟩ | ⟨⟨device, hsink⟩, -⟩
  · exact FileSystem.read_set_of_sink hsink
  · exact absurd hsink (hfile device)

/-- What is read under a path stays if the write goes to another place. -/
theorem read_of_write_elsewhere {input : String} {location : Location}
    (h : w.write path text = .ok w₁)
    (hinput : w.files.resolve w.working input = .ok (.name location))
    (hne : w.files.resolve w.working path ≠ .ok (.name location)) :
    w₁.files.read w.working input = w.files.read w.working input := by
  rcases write_cases h with ⟨target, hsink, rfl⟩ | ⟨-, printed, rfl⟩
  · obtain ⟨houtput, -, -, hfree⟩ := FileSystem.sink_eq_file hsink
    refine FileSystem.read_set_of_ne hfree hinput fun heq => hne ?_
    rw [heq, houtput]
  · rfl

/-- A program that could be started under its path still can be. -/
theorem programAt_of_write {name : String} {program : Program} (h : w.write path text = .ok w₁)
    (hprogram : w.programAt name = .ok program) : w₁.programAt name = .ok program := by
  rcases write_cases h with ⟨target, hsink, rfl⟩ | ⟨-, printed, rfl⟩
  · obtain ⟨-, -, -, hfree⟩ := FileSystem.sink_eq_file hsink
    rw [programAt] at hprogram ⊢
    split at hprogram
    · next location hresolve =>
        dsimp only
        rw [FileSystem.resolve_set hfree hresolve]
        dsimp only
        split at hprogram
        · exact hprogram
        · cases hprogram
    · cases hprogram
  · exact hprogram

end World

end GrammarCompiler.CommandLine

import GrammarCompiler.CommandLine.Spelling

/-!
What accepted arguments say. The arguments are read one by one, and each step
adds one item to what has been given; so the request is the one that the items
of the whole list make, in whichever way these are written.
-/

namespace GrammarCompiler.CommandLine

theorem exists_of_map_eq_ok {ε α β : Type} {f : α → β} {x : Except ε α} {b : β}
    (h : x.map f = .ok b) : ∃ a, x = .ok a ∧ f a = b := by
  cases x with
  | error e => cases h
  | ok a => exact ⟨a, rfl, Except.ok.inj h⟩

/-! ### The form of an argument -/

theorem eq_of_splitEquals {cs name : List Char} {value : Option (List Char)}
    (h : splitEquals cs = (name, value)) :
    cs = name ++ (value.map ('=' :: ·)).getD [] := by
  induction cs generalizing name with
  | nil =>
      obtain ⟨rfl, rfl⟩ := Prod.mk.inj h
      rfl
  | cons c cs ih =>
      rw [splitEquals.eq_def] at h
      split at h
      · next heq => cases heq
      · next heq =>
          obtain ⟨rfl, rfl⟩ := Prod.mk.inj h
          exact heq
      · next heq =>
          obtain ⟨rfl, rfl⟩ := List.cons.inj heq
          obtain ⟨rfl, rfl⟩ := Prod.mk.inj h
          exact congrArg (c :: ·) (ih rfl)

def Argument.IsFormOf : Argument → String → Prop
  | .separator, argument => argument = "--"
  | .long name none, argument => argument = "--" ++ name
  | .long name (some value), argument => argument = "--" ++ name ++ "=" ++ value
  | .short letter attached, argument => argument = String.ofList ('-' :: letter :: attached)
  | .plain, argument => IsPlain argument

theorem isFormOf_ofChars (argument : String) :
    (Argument.ofChars argument.toList).IsFormOf argument := by
  generalize hcs : argument.toList = cs
  obtain rfl := String.toList_inj.1 (hcs.trans (String.toList_ofList).symm)
  fun_cases Argument.ofChars cs with
  | case1 => rfl
  | case2 rest _ name value heq =>
      rw [eq_of_splitEquals heq]
      cases value with
      | none => exact String.toList_inj.1 (by simp)
      | some value => exact String.toList_inj.1 (by simp)
  | case3 letter attached => rfl
  | case4 _ _ _ hshort =>
      match cs with
      | [] => exact .inr (by simp)
      | [c] =>
          by_cases hc : c = '-'
          · exact .inl (by rw [hc])
          · exact .inr (by simpa using hc)
      | c :: letter :: attached =>
          refine .inr ?_
          rw [String.toList_ofList, List.head?_cons]
          intro hc
          exact hshort letter attached (by rw [Option.some.inj hc])

/-! ### Items -/

namespace Given

/-- Reading the items takes what has been given from the first state to the second. -/
structure Adds (given : Given) (items : List Item) (given' : Given) : Prop where
  input : ∀ path, given'.input = some path ↔ given.input = some path ∨ .input path ∈ items
  value : ∀ option text, given'.value? option = some text ↔
    given.value? option = some text ∨ .value option text ∈ items
  printTree : given'.printTree = true ↔ given.printTree = true ∨ .printTree ∈ items

variable {given given' given'' : Given} {items items' : List Item}

theorem Adds.nil : given.Adds [] given := by
  constructor <;> simp

theorem Adds.append (h : given.Adds items given') (h' : given'.Adds items' given'') :
    given.Adds (items ++ items') given'' where
  input path := by rw [h'.input, h.input, List.mem_append, or_assoc]
  value option text := by rw [h'.value, h.value, List.mem_append, or_assoc]
  printTree := by rw [h'.printTree, h.printTree, List.mem_append, or_assoc]

theorem adds_of_addInput {path : String} (h : given.addInput path = .ok given') :
    given.Adds [.input path] given' := by
  rw [addInput] at h
  split at h
  · cases h
  · next hfree =>
      split at h
      · cases h
      · obtain rfl := Except.ok.inj h
        have hnone : given.input = none := by simpa using hfree
        exact {
          input := fun p => by simp [hnone, eq_comm]
          value := fun option text => by cases option <;> simp [value?]
          printTree := by simp }

theorem adds_of_addValue {option : ValueOption} {text : String}
    (h : given.addValue option text = .ok given') :
    given.Adds [.value option text] given' := by
  rw [addValue] at h
  split at h
  · cases h
  · split at h
    · cases h
    · next hfree =>
        obtain rfl := Except.ok.inj h
        have hnone : given.value? option = none := by simpa using hfree
        have hvalue : ∀ other, (given.setValue option text).value? other =
            if other = option then some text else given.value? other := by
          intro other
          cases option <;> cases other <;> rfl
        refine ⟨fun p => ?_, fun other t => ?_, ?_⟩
        · cases option <;> simp [setValue]
        · rw [hvalue]
          by_cases heq : other = option
          · subst heq
            simp [hnone, eq_comm]
          · simp [heq]
        · cases option <;> simp [setValue]

theorem adds_of_addPrintTree (h : given.addPrintTree = .ok given') :
    given.Adds [.printTree] given' := by
  rw [addPrintTree] at h
  split at h
  · cases h
  · obtain rfl := Except.ok.inj h
    exact {
      input := fun p => by simp
      value := fun option text => by cases option <;> simp [value?]
      printTree := by simp }

theorem adds_of_readInputs {paths : List String} (h : readInputs given paths = .ok given') :
    given.Adds (paths.map .input) given' := by
  induction paths generalizing given with
  | nil =>
      obtain rfl := Except.ok.inj h
      exact .nil
  | cons path paths ih =>
      rw [readInputs] at h
      split at h
      · cases h
      · next hadd => exact (adds_of_addInput hadd).append (ih h)

end Given

/-! ### Options -/

/-- What an argument that is an option says, by its meaning. -/
def OptionMeaning.IsMeaningOf : OptionMeaning → String → Prop
  | .help, _ | .version, _ => True
  | .printTree, argument => argument = "--print-ast"
  | .value option none, argument => argument ∈ option.flags
  | .value option (some text), argument => Item.Written (.value option text) [argument]

theorem isMeaningOf_of_long {argument name : String} {value : Option String}
    {meaning : OptionMeaning} (hform : (Argument.long name value).IsFormOf argument)
    (h : longMeaning argument name value = .ok meaning) : meaning.IsMeaningOf argument := by
  rw [longMeaning.eq_def] at h
  split at h
  · obtain rfl := Except.ok.inj h
    cases value with
    | none => exact List.mem_cons_of_mem _ (List.mem_singleton.2 hform)
    | some text => exact hform ▸ Item.Written.long
  · obtain rfl := Except.ok.inj h
    cases value with
    | none => exact List.mem_singleton.2 hform
    | some text => exact hform ▸ Item.Written.long
  · obtain rfl := Except.ok.inj h
    exact hform
  · obtain rfl := Except.ok.inj h
    trivial
  · obtain rfl := Except.ok.inj h
    trivial
  all_goals cases h

theorem isMeaningOf_of_short {argument : String} {letter : Char} {attached : List Char}
    {meaning : OptionMeaning} (hform : (Argument.short letter attached).IsFormOf argument)
    (h : shortMeaning argument letter attached = .ok meaning) : meaning.IsMeaningOf argument := by
  rw [shortMeaning.eq_def] at h
  split at h
  · obtain rfl := Except.ok.inj h
    fun_cases attachedValue? attached with
    | case1 => exact List.mem_cons.2 (.inl hform)
    | case2 value =>
        have hargument : argument = "-o=" ++ String.ofList value :=
          hform.trans (String.toList_inj.1 (by simp))
        exact hargument ▸ Item.Written.shortEquals
    | case3 _ hne hequals =>
        have hargument : argument = "-o" ++ String.ofList attached :=
          hform.trans (String.toList_inj.1 (by simp))
        refine hargument ▸ Item.Written.short (by simpa using hne) fun hhead => ?_
        rw [String.toList_ofList] at hhead
        obtain ⟨value, heq⟩ := List.head?_eq_some_iff.1 hhead
        exact hequals value heq
  · obtain rfl := Except.ok.inj h
    trivial
  · obtain rfl := Except.ok.inj h
    trivial
  · cases h

theorem isMeaningOf_optionMeaning {argument : String} {meaning : OptionMeaning}
    (h : optionMeaning argument = .ok (some meaning)) : meaning.IsMeaningOf argument := by
  have hform := isFormOf_ofChars argument
  rw [optionMeaning] at h
  split at h
  · cases h
  · cases h
  · next heq =>
      rw [heq] at hform
      obtain ⟨m, hm, hsome⟩ := exists_of_map_eq_ok h
      exact isMeaningOf_of_long hform (Option.some.inj hsome ▸ hm)
  · next heq =>
      rw [heq] at hform
      obtain ⟨m, hm, hsome⟩ := exists_of_map_eq_ok h
      exact isMeaningOf_of_short hform (Option.some.inj hsome ▸ hm)

theorem isPlain_of_optionMeaning {argument : String}
    (hne : Argument.ofChars argument.toList ≠ .separator) (h : optionMeaning argument = .ok none) :
    IsPlain argument := by
  have hform := isFormOf_ofChars argument
  rw [optionMeaning] at h
  split at h
  · next heq => exact absurd heq hne
  · next heq => rwa [heq] at hform
  · obtain ⟨m, -, hm⟩ := exists_of_map_eq_ok h
    cases hm
  · obtain ⟨m, -, hm⟩ := exists_of_map_eq_ok h
    cases hm

/-! ### Reading -/

/-- An option that waits for its value takes it from the next argument. -/
theorem readArguments_pending {option : ValueOption} {given : Given} {arguments : List String}
    {reading : Reading} (h : readArguments (some option) given arguments = .ok reading) :
    ∃ text rest given₁, arguments = text :: rest ∧ IsPlain text ∧
      given.addValue option text = .ok given₁ ∧ readArguments none given₁ rest = .ok reading := by
  cases arguments with
  | nil => cases h
  | cons text rest =>
      have hform := isFormOf_ofChars text
      rw [readArguments.eq_def] at h
      split at h
      · next heq => cases heq
      · next heq =>
          obtain ⟨rfl, rfl⟩ := List.cons.inj heq
          split at h
          · next hoption hplain =>
              obtain rfl := Option.some.inj hoption
              rw [hplain] at hform
              split at h
              · cases h
              · next given₁ hadd => exact ⟨_, _, given₁, rfl, hform, hadd, h⟩
          · cases h
          · next hoption _ => cases hoption
          · next hoption _ => cases hoption

/-- One step: the front of the arguments says an item, or is the separator. -/
theorem readArguments_cons {given given' : Given} {argument : String} {rest : List String}
    (h : readArguments none given (argument :: rest) = .ok (.complete given')) :
    (argument = "--" ∧ readInputs given rest = .ok given') ∨
    ∃ item words rest' given₁, item.Written words ∧ argument :: rest = words ++ rest' ∧
      rest'.length ≤ rest.length ∧ given.Adds [item] given₁ ∧
      readArguments none given₁ rest' = .ok (.complete given') := by
  have hform := isFormOf_ofChars argument
  rw [readArguments.eq_def] at h
  dsimp only at h
  split at h
  · next hoption _ => cases hoption
  · next hoption _ => cases hoption
  · next hseparator =>
      rw [hseparator] at hform
      obtain ⟨given'', hinputs, heq⟩ := exists_of_map_eq_ok h
      exact .inl ⟨hform, Reading.complete.inj heq ▸ hinputs⟩
  · next hseparator =>
      refine .inr ?_
      split at h
      · cases h
      · next hnone =>
          split at h
          · cases h
          · next given₁ hadd =>
              have hplain := isPlain_of_optionMeaning hseparator hnone
              exact ⟨_, [argument], rest, given₁, .input hplain, rfl, Nat.le_refl _,
                Given.adds_of_addInput hadd, h⟩
      · cases h
      · cases h
      · next hmeaning =>
          split at h
          · cases h
          · next given₁ hadd =>
              obtain rfl : argument = "--print-ast" := isMeaningOf_optionMeaning hmeaning
              exact ⟨_, _, rest, given₁, .printTree, rfl, Nat.le_refl _,
                Given.adds_of_addPrintTree hadd, h⟩
      · next option hmeaning =>
          obtain ⟨text, rest', given₁, rfl, hplain, hadd, hread⟩ := readArguments_pending h
          exact ⟨_, [argument, text], rest', given₁,
            .separate (isMeaningOf_optionMeaning hmeaning) hplain, rfl, Nat.le_succ _,
            Given.adds_of_addValue hadd, hread⟩
      · next option text hmeaning =>
          split at h
          · cases h
          · next given₁ hadd =>
              exact ⟨_, [argument], rest, given₁, isMeaningOf_optionMeaning hmeaning, rfl,
                Nat.le_refl _, Given.adds_of_addValue hadd, h⟩

/-- Arguments that are read to their end say items, and these make up what they give. -/
theorem exists_spelled_of_readArguments {given given' : Given} (arguments : List String)
    (h : readArguments none given arguments = .ok (.complete given')) :
    ∃ items, Spelled arguments items ∧ given.Adds items given' := by
  match arguments with
  | [] =>
      cases h
      exact ⟨[], .nil, .nil⟩
  | argument :: rest =>
      rcases readArguments_cons h with ⟨rfl, hinputs⟩ | ⟨item, words, rest', given₁, hwritten,
        heq, hlength, hadds, hread⟩
      · exact ⟨_, .separator, Given.adds_of_readInputs hinputs⟩
      · obtain ⟨items, hspelled, hitems⟩ := exists_spelled_of_readArguments rest' hread
        rw [heq]
        exact ⟨item :: items, .cons hwritten hspelled, hadds.append hitems⟩
termination_by arguments.length
decreasing_by exact Nat.lt_succ_of_le hlength

theorem eq_some_iff_of_chooseAssembler {named default chosen : Option String}
    (h : chooseAssembler named default = .ok chosen) (name : String) :
    chosen = some name ↔ named = some name ∨ named = none ∧ default = some name := by
  rw [chooseAssembler.eq_def] at h
  split at h
  · obtain rfl := Except.ok.inj h
    simp
  · split at h
    · cases h
    · obtain rfl := Except.ok.inj h
      simp
  · obtain rfl := Except.ok.inj h
    simp

theorem madeBy_of_request {given : Given} {items : List Item} {defaultAssembler : Option String}
    {request : Request} (hadds : Given.Adds {} items given)
    (h : given.request defaultAssembler = .ok request) :
    request.MadeBy items defaultAssembler := by
  have hvalue : ∀ option text, .value option text ∈ items ↔ given.value? option = some text := by
    intro option text
    rw [hadds.value]
    cases option <;> simp [Given.value?]
  rw [Given.request] at h
  split at h
  · cases h
  · next assembler hassembler =>
      split at h
      · cases h
      · next input hinput =>
          obtain rfl := Except.ok.inj h
          refine ⟨fun path => ?_, hvalue .output, fun name => ?_, ?_⟩
          · simpa [hinput] using (hadds.input path).symm
          · rw [hvalue, eq_some_iff_of_chooseAssembler hassembler]
            simp [hvalue, Given.value?, Option.eq_none_iff_forall_ne_some]
          · simpa using hadds.printTree.symm

/-- Accepted arguments say items that make the request. -/
theorem exists_spelled_of_parse {defaultAssembler : Option String} {arguments : List String}
    {request : Request} (h : Command.parse defaultAssembler arguments = .ok (.compile request)) :
    ∃ items, Spelled arguments items ∧ request.MadeBy items defaultAssembler := by
  rw [Command.parse] at h
  split at h
  · cases h
  · cases h
  · cases h
  · next given hread =>
      obtain ⟨items, hspelled, hadds⟩ := exists_spelled_of_readArguments arguments hread
      obtain ⟨request', hrequest, heq⟩ := exists_of_map_eq_ok h
      obtain rfl := Command.compile.inj heq
      exact ⟨items, hspelled, madeBy_of_request hadds hrequest⟩

end GrammarCompiler.CommandLine

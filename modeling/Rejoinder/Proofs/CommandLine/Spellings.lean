import Mathlib
import Rejoinder.CommandLine.Options

/-!
# The two spellings of an option

An option with a value can be written as two arguments, its name and the value, or as one, its name,
an equals sign and the value. What begins the second spelling is taken off as often as it is there,
so it says what the first one says of the value without such a beginning
(`ValueOption.read_inline`). The spellings agree, whatever the other arguments are, exactly if the
value does not itself begin with the name and the equals sign (`parse_spellings_agree_iff`).

The comparison is about arguments that are read as options. An argument behind an option that takes
a value is that value, however it is written (`endsAtOption`).
-/

set_option autoImplicit false

namespace Rejoinder

/-! ## Taking off a beginning -/

namespace Text

variable {lead t : Text}

/-- One repetition more at the beginning is dropped with the others. -/
theorem dropRepeated_append (hlead : lead ≠ []) (t : Text) :
    dropRepeated lead (lead ++ t) = dropRepeated lead t := by
  rw [dropRepeated, dif_pos ⟨hlead, by simp⟩, List.drop_left]

/-- A text that does not begin with the lead stays as it is. -/
theorem dropRepeated_eq_self (h : lead.isPrefixOf t = false) : dropRepeated lead t = t := by
  rw [dropRepeated, dif_neg (by simp [h])]

/-- Dropping repetitions makes no text longer. -/
theorem length_dropRepeated_le (lead t : Text) : (dropRepeated lead t).length ≤ t.length := by
  fun_induction dropRepeated lead t with
  | case1 t h ih =>
    rw [List.length_drop] at ih
    omega
  | case2 => exact le_rfl

/-- What begins with another text is changed when that is taken off. -/
theorem dropRepeated_ne_self (hlead : lead ≠ []) (h : lead.isPrefixOf t = true) :
    dropRepeated lead t ≠ t := by
  obtain ⟨rest, rfl⟩ := List.isPrefixOf_iff_prefix.mp h
  rw [dropRepeated_append hlead]
  intro heq
  have hle := length_dropRepeated_le lead rest
  have hpos := List.length_pos_iff.mpr hlead
  rw [heq, List.length_append] at hle
  omega

/-- A text that does not begin with a blank is not trimmed to nothing. -/
theorem trim_cons_ne_nil {c : Char} (hc : isBlank c = false) (t : Text) : trim (c :: t) ≠ [] := by
  have hkept : (c :: t).dropWhile isBlank = c :: t := by rw [List.dropWhile_cons, hc]; rfl
  rw [trim, hkept]
  intro h
  have hall := List.dropWhile_eq_nil_iff.mp (List.reverse_eq_nil_iff.mp h) c (by simp)
  rw [hc] at hall
  contradiction

end Text

namespace CommandLine

/-! ## Options that take a value -/

/-- The options that take a value. -/
inductive ValueOption
  | scripts
  | user
  | depth
deriving DecidableEq, Repr

namespace ValueOption

/-- The long name of the option. -/
def name : ValueOption → String
  | scripts => "--scripts"
  | user => "--user"
  | depth => "--depth"

/-- What stands before the value in the spelling with one argument. -/
def lead (option : ValueOption) : String := option.name ++ "="

/-- The options with a value, or why the value is refused. -/
def set (option : ValueOption) (o : Options) (value : String) : Except UsageError Options :=
  match option with
  | scripts => .ok { o with scripts := some value }
  | user => .ok { o with user := value }
  | depth => o.withDepth value

/-- The option that takes the argument behind this one as its value. -/
def ofArgument? (argument : String) : Option ValueOption :=
  if argument = "--scripts" ∨ argument = "-s" then some scripts
  else if argument = "--user" ∨ argument = "-u" then some user
  else if argument = "--depth" then some depth
  else none

/-- The name of an option is read as that option. -/
theorem ofArgument?_name (option : ValueOption) : ofArgument? option.name = some option := by
  cases option <;> rfl

end ValueOption

/-- Whether what follows some arguments is read as an option, and not as the value of the last of
them. -/
def endsAtOption : List String → Bool
  | [] => true
  | argument :: rest =>
    if (ValueOption.ofArgument? argument).isSome then
      match rest with
      | [] => false
      | _ :: rest => endsAtOption rest
    else endsAtOption rest

/-! ## Reading -/

section Read

variable {o : Options} {argument : String}

/-- An option that takes a value is read together with the next argument. -/
theorem read_of_ofArgument? {option : ValueOption}
    (h : ValueOption.ofArgument? argument = some option) (value : String) (rest : List String) :
    o.read (argument :: value :: rest) =
      match option.set o value with
      | .ok o' => o'.read rest
      | .error e => .error e := by
  unfold ValueOption.ofArgument? at h
  split_ifs at h with hscripts huser hdepth
  · obtain rfl := Option.some.inj h
    rcases hscripts with rfl | rfl <;> rfl
  · obtain rfl := Option.some.inj h
    rcases huser with rfl | rfl <;> rfl
  · obtain rfl := Option.some.inj h
    obtain rfl := hdepth
    rfl

/-- Any other argument is read alone. -/
theorem read_of_ofArgument?_eq_none (h : ValueOption.ofArgument? argument = none)
    (rest : List String) :
    o.read (argument :: rest) =
      if argument = "-h" ∨ argument = "--help" then .ok .help
      else if argument = "-V" ∨ argument = "--version" then .ok .version
      else match o.single argument with
        | .ok o' => o'.read rest
        | .error e => .error e := by
  unfold ValueOption.ofArgument? at h
  split_ifs at h with hscripts huser hdepth
  rw [Options.read.eq_def]
  cases hsingle : o.single argument <;> simp only [hscripts, huser, hdepth, hsingle, if_false]

/-- Reading goes on behind the arguments, with options that they decide, or it ends in them. -/
def GoesOn (o : Options) (arguments : List String) : Prop :=
  (∃ o' : Options, ∀ tail, o.read (arguments ++ tail) = o'.read tail) ∨
    ∃ result, ∀ tail, o.read (arguments ++ tail) = result

/-- If reading goes on behind two lists of arguments, it goes on behind both together. -/
theorem GoesOn.append {first rest : List String} (h : GoesOn o first)
    (hrest : ∀ o', GoesOn o' rest) : GoesOn o (first ++ rest) := by
  simp only [GoesOn, List.append_assoc]
  rcases h with ⟨o', ho'⟩ | ⟨result, hresult⟩
  · simp only [ho']
    exact hrest o'
  · exact .inr ⟨result, fun tail => hresult _⟩

/-- Reading goes on behind an option that takes a value, and its value. -/
theorem goesOn_pair {option : ValueOption} (h : ValueOption.ofArgument? argument = some option)
    (value : String) : GoesOn o [argument, value] := by
  simp only [GoesOn, List.cons_append, List.nil_append, read_of_ofArgument? h]
  cases option.set o value with
  | ok o' => exact .inl ⟨o', fun _ => rfl⟩
  | error e => exact .inr ⟨_, fun _ => rfl⟩

/-- Reading goes on behind an argument that takes no value from the next one. -/
theorem goesOn_singleton (h : ValueOption.ofArgument? argument = none) : GoesOn o [argument] := by
  simp only [GoesOn, List.singleton_append, read_of_ofArgument?_eq_none h]
  split_ifs
  · exact .inr ⟨_, fun _ => rfl⟩
  · exact .inr ⟨_, fun _ => rfl⟩
  · cases o.single argument with
    | ok o' => exact .inl ⟨o', fun _ => rfl⟩
    | error e => exact .inr ⟨_, fun _ => rfl⟩

/-- Arguments behind which an option is read can be read without what follows. -/
theorem goesOn_of_endsAtOption {before : List String} (h : endsAtOption before = true) :
    GoesOn o before := by
  fun_induction endsAtOption before generalizing o with
  | case1 => exact .inl ⟨o, fun _ => rfl⟩
  | case2 => contradiction
  | case3 argument hvalue value rest ih =>
    obtain ⟨option, hoption⟩ := Option.isSome_iff_exists.mp hvalue
    exact (goesOn_pair hoption value).append fun _ => ih h
  | case4 argument rest hvalue ih =>
    exact (goesOn_singleton (by simpa using hvalue)).append fun _ => ih h

end Read

/-! ## The spelling with one argument -/

namespace ValueOption

/-- The arguments that are spelled in one way only, or that are names of options. -/
def fixedArguments : List String :=
  ["-h", "--help", "-V", "--version", "--scripts", "-s", "--user", "-u", "--depth", "--color",
    "--no-color", "--debug", "--rules", "--verbose", "-v"]

/-- The spelling with an equals sign begins with something. -/
theorem lead_ne_nil (option : ValueOption) : option.lead.toList ≠ [] := by
  cases option <;> decide

/-- A value behind an equals sign makes an argument of its own. -/
theorem lead_append_ne (option : ValueOption) (value : String) :
    ∀ argument ∈ fixedArguments, option.lead ++ value ≠ argument := by
  intro argument hmem heq
  have hbegins : option.lead.toList.isPrefixOf argument.toList = true := by
    rw [← heq, String.toList_append]
    simp
  have hall : fixedArguments.all (!option.lead.toList.isPrefixOf ·.toList) = true := by
    cases option <;> decide
  have hno := List.all_eq_true.mp hall argument hmem
  rw [hbegins] at hno
  contradiction

/-- What the value is, once the beginnings of the option are taken off. -/
def kept (option : ValueOption) (value : String) : String :=
  String.ofList (Text.dropRepeated option.lead.toList value.toList)

/-- An argument that begins with an option has what is kept of the rest as its value. -/
theorem inlineValue?_self (option : ValueOption) (value : String) :
    Options.inlineValue? option.lead (option.lead ++ value) = some (option.kept value) := by
  have hbegins : option.lead.toList.isPrefixOf (option.lead ++ value).toList = true := by
    rw [String.toList_append]
    simp
  rw [Options.inlineValue?, if_pos hbegins, String.toList_append,
    Text.dropRepeated_append option.lead_ne_nil]
  rfl

/-- No option begins as another one does. -/
theorem not_begins_lead {option other : ValueOption} (h : other ≠ option) :
    ¬ other.lead.toList <+: option.lead.toList := by
  cases option <;> cases other <;> first | contradiction | decide

/-- An argument that begins with one option is no other option. -/
theorem inlineValue?_other {option other : ValueOption} (h : other ≠ option) (value : String) :
    Options.inlineValue? other.lead (option.lead ++ value) = none := by
  rw [Options.inlineValue?, if_neg]
  intro hbegins
  rw [List.isPrefixOf_iff_prefix, String.toList_append] at hbegins
  rcases List.prefix_or_prefix_of_prefix hbegins (List.prefix_append _ _) with hfirst | hfirst
  · exact not_begins_lead h hfirst
  · exact not_begins_lead h.symm hfirst

/-- An argument that begins with an option and an equals sign sets the option. -/
theorem single_inline (option : ValueOption) (o : Options) (value : String) :
    o.single (option.lead ++ value) = option.set o (option.kept value) := by
  have hne := option.lead_append_ne value
  simp only [fixedArguments, List.forall_mem_cons, List.not_mem_nil, false_implies, implies_true,
    and_true] at hne
  have hself := inlineValue?_self option value
  have hother {other : ValueOption} (h : other ≠ option) := inlineValue?_other h value
  simp only [Options.single, hne, or_self, if_false]
  cases option with
  | scripts =>
    rw [show "--scripts=" = scripts.lead from rfl, hself]
    rfl
  | user =>
    rw [show "--scripts=" = scripts.lead from rfl, show "--user=" = user.lead from rfl, hself,
      hother (by decide)]
    rfl
  | depth =>
    rw [show "--scripts=" = scripts.lead from rfl, show "--user=" = user.lead from rfl,
      show "--depth=" = depth.lead from rfl, hself, hother (by decide), hother (by decide)]
    rfl

/-- The spelling with one argument is read as that with two arguments is, for the value without the
beginnings that are taken off. -/
theorem read_inline (option : ValueOption) (o : Options) (value : String) (rest : List String) :
    o.read ((option.lead ++ value) :: rest) =
      o.read (option.name :: option.kept value :: rest) := by
  have hne := option.lead_append_ne value
  simp only [fixedArguments, List.forall_mem_cons, List.not_mem_nil, false_implies, implies_true,
    and_true] at hne
  have hnone : ofArgument? (option.lead ++ value) = none := by simp [ofArgument?, hne]
  rw [read_of_ofArgument? option.ofArgument?_name, read_of_ofArgument?_eq_none hnone]
  simp only [hne, or_self, if_false, single_inline]

/-! ## Where the spellings differ -/

variable {option : ValueOption} {value : String}

/-- A value that does not begin with its option is kept as it is. -/
theorem kept_eq_self (h : ¬ option.lead.toList <+: value.toList) : option.kept value = value := by
  rw [kept, Text.dropRepeated_eq_self, String.ofList_toList]
  simpa [← List.isPrefixOf_iff_prefix] using h

/-- A value that begins with its option is not kept as it is. -/
theorem kept_ne_self (h : option.lead.toList <+: value.toList) : option.kept value ≠ value := by
  intro heq
  have hne := Text.dropRepeated_ne_self option.lead_ne_nil (List.isPrefixOf_iff_prefix.mpr h)
  rw [← String.toList_inj, kept, String.toList_ofList] at heq
  exact hne heq

/-- An option before the value is dropped like those in it. -/
theorem kept_append (option : ValueOption) (value : String) :
    option.kept (option.lead ++ value) = option.kept value := by
  rw [kept, String.toList_append, Text.dropRepeated_append option.lead_ne_nil]
  rfl

/-- What begins with an option begins with a dash. -/
theorem exists_dash (h : option.lead.toList <+: value.toList) :
    ∃ t, value.toList = '-' :: t := by
  obtain ⟨t, ht⟩ := h
  rw [← ht]
  cases option <;> exact ⟨_, rfl⟩

/-- With a value that begins with the option itself, the spelling with two arguments is read in
another way than with what is left of the value. -/
theorem read_kept_ne (color : Bool) (h : option.lead.toList <+: value.toList) :
    (Options.default color).read [option.name, option.kept value] ≠
      (Options.default color).read [option.name, value] := by
  have hkept := kept_ne_self h
  obtain ⟨t, ht⟩ := exists_dash h
  have hdefault : (Text.trim "user".toList).isEmpty = false := by decide
  rw [read_of_ofArgument? option.ofArgument?_name, read_of_ofArgument? option.ofArgument?_name]
  cases option with
  | scripts =>
    simp only [set, Options.read, Options.default, hdefault]
    simpa using hkept
  | user =>
    have huser : (Text.trim value.toList).isEmpty = false := by
      rw [ht]
      simpa using Text.trim_cons_ne_nil (by decide) t
    simp only [set, Options.read, Options.default, huser, Bool.false_eq_true, if_false]
    split_ifs
    · simp
    · simpa using hkept
  | depth =>
    have hnumber : Text.number? value.toList = none := by
      rw [ht]
      simp [Text.number?, Text.digitsValue?]
    simp only [set, Options.withDepth, hnumber]
    cases Text.number? (kept depth value).toList with
    | some n =>
      simp only [Options.read, Options.default, hdefault]
      simp
    | none => simpa using hkept

end ValueOption

/-- The spelling with one argument says what that with two arguments says, for the value without the
beginnings that are taken off. So the two agree among any other arguments, with the same command or
the same complaint, exactly if the value does not begin with the option and the equals sign. -/
theorem parse_spellings_agree_iff (option : ValueOption) (value : String) :
    (∀ color before after, endsAtOption before = true →
      parse color (before ++ (option.lead ++ value) :: after) =
        parse color (before ++ option.name :: option.kept value :: after)) ∧
    ((∀ color before after, endsAtOption before = true →
      parse color (before ++ (option.lead ++ value) :: after) =
        parse color (before ++ option.name :: value :: after)) ↔
      ¬ option.lead.toList <+: value.toList) := by
  have hkept : ∀ color before after, endsAtOption before = true →
      parse color (before ++ (option.lead ++ value) :: after) =
        parse color (before ++ option.name :: option.kept value :: after) := by
    intro color before after hbefore
    rw [parse]
    rcases goesOn_of_endsAtOption (o := Options.default color) hbefore with ⟨o, ho⟩ | ⟨_, hends⟩
    · rw [ho, option.read_inline, parse, ho]
    · rw [hends, parse, hends]
  refine ⟨hkept, fun hagree hbegins => ?_, fun hbegins => ?_⟩
  · have hagree := hagree false [] [] rfl
    rw [hkept false [] [] rfl] at hagree
    exact ValueOption.read_kept_ne false hbegins hagree
  · rwa [ValueOption.kept_eq_self hbegins] at hkept

/-- The depth limit 3 in one spelling, and a value that is no number in the other one. -/
theorem parse_spellings_differ :
    parse false ["--depth=--depth=3"] =
      .ok (.run ⟨none, "user", some 3, false, false, false, false⟩) ∧
    parse false ["--depth", "--depth=3"] = .error (.invalidDepth "--depth=3") := by
  have hkept : ValueOption.depth.kept "--depth=3" = "3" :=
    (ValueOption.depth.kept_append "3").trans (ValueOption.kept_eq_self (by decide))
  constructor
  · show (Options.default false).read ((ValueOption.depth.lead ++ "--depth=3") :: []) = _
    rw [ValueOption.read_inline, hkept]
    rfl
  · rfl

end CommandLine

end Rejoinder

import Mathlib.Data.String.Basic
import Rejoinder.Proofs.Engine.Restart
import Rejoinder.Proofs.Script.Faults

/-!
# Bot variables from script files

A script file may come with values for bot variables. They are for variables that have none yet
(`Vars.get?_supply`), so of several files that name a variable the first one gives it its
value, and nothing that a directory holds changes a variable that is there already. The setups of
all scripts of a directory come down to one search through its files, in ascending order of their
names (`Directory.get?_setUp`).

The look-ups in the variables of a file are unambiguous since a file has each of them once
(`ScriptFile.nodup_botvars`).
-/

set_option autoImplicit false

namespace Rejoinder

/-! ## The variables of a file -/

namespace Json

variable {key : String} {value : Json} {fields : List (String × Json)}

/-- Putting a field in adds its key, and no other. -/
theorem mem_keys_putField {k : String} :
    k ∈ (putField key value fields).map Prod.fst ↔ k = key ∨ k ∈ fields.map Prod.fst := by
  induction fields with
  | nil => simp [putField]
  | cons field rest ih =>
    obtain ⟨l, v⟩ := field
    rw [putField]
    split
    · simp
    · split
      · rename_i hkey
        simp [hkey]
      · rw [List.map_cons, List.mem_cons, ih, List.map_cons, List.mem_cons]
        tauto

/-- Putting a field in keeps the keys in ascending order. -/
theorem pairwise_putField (h : (fields.map Prod.fst).Pairwise (· < ·)) :
    ((putField key value fields).map Prod.fst).Pairwise (· < ·) := by
  induction fields with
  | nil => simp [putField]
  | cons field rest ih =>
    obtain ⟨l, v⟩ := field
    obtain ⟨hbehind, hrest⟩ := List.pairwise_cons.mp h
    rw [putField]
    split
    · rename_i hbefore
      refine List.pairwise_cons.mpr ⟨?_, h⟩
      intro k hk
      rcases List.mem_cons.mp hk with rfl | hk
      · exact hbefore
      · exact hbefore.trans (hbehind k hk)
    · split
      · rename_i hkey
        subst hkey
        exact h
      · rename_i hbefore hkey
        refine List.pairwise_cons.mpr ⟨?_, ih hrest⟩
        intro k hk
        rcases mem_keys_putField.mp hk with rfl | hk
        · exact lt_of_le_of_ne (not_lt.mp hbefore) (Ne.symm hkey)
        · exact hbehind k hk

/-- A table that is read has every key once. -/
theorem nodup_of_table? {table : List (String × Json)} (h : table? value = some table) :
    (table.map Prod.fst).Nodup := by
  have hfold : ∀ fields sorted : List (String × Json), (sorted.map Prod.fst).Pairwise (· < ·) →
      ((fields.foldl (fun sorted field => putField field.1 field.2 sorted) sorted).map
        Prod.fst).Pairwise (· < ·) := by
    intro fields
    induction fields with
    | nil => exact fun _ hsorted => hsorted
    | cons field rest ih => exact fun _ hsorted => ih _ (pairwise_putField hsorted)
  cases value with
  | object fields =>
    obtain rfl := Option.some.inj h
    exact (hfold _ [] List.Pairwise.nil).imp ne_of_lt
  | _ => contradiction

end Json

/-- A file has every variable once. -/
theorem ScriptFile.nodup_botvars {t : Text} {file : ScriptFile} (h : ofText? t = some file) :
    (file.botvars.map Prod.fst).Nodup := by
  have hfields : ∀ topic botvars rules alternates substitutions,
      ofFields? topic botvars rules alternates substitutions = some file →
        (file.botvars.map Prod.fst).Nodup := by
    intro topic botvars rules alternates substitutions hfile
    simp only [ofFields?, Option.bind_eq_bind, Option.bind_eq_some_iff, Option.pure_def,
      Option.some.injEq] at hfile
    obtain ⟨_, _, table, htable, _, _, _, _, _, _, rfl⟩ := hfile
    cases botvars with
    | none =>
      obtain rfl := Option.some.inj htable
      exact List.nodup_nil
    | some value => exact Json.nodup_of_table? htable
  obtain ⟨value, -, hvalue⟩ := Option.bind_eq_some_iff.mp h
  unfold ofJson? at hvalue
  split at hvalue
  · split at hvalue
    · exact hfields _ _ _ _ _ hvalue
    · contradiction
  · split at hvalue
    · exact hfields _ _ _ _ _ hvalue
    · contradiction
  · contradiction

/-! ## Setups that overwrite nothing -/

namespace Vars

/-- Variables that have values keep them, and the others get those that are supplied. -/
theorem get?_supply (values : List (String × Json)) (vars : Vars) (key : String) :
    (supply values vars).get? key = (vars.get? key).or (Table.find? key values) := by
  induction values generalizing vars with
  | nil => simp [supply, Table.find?]
  | cons v rest ih =>
    obtain ⟨k, value⟩ := v
    have hstep : supply ((k, value) :: rest) vars =
        supply rest (if vars.contains k then vars else vars.insert k value) := rfl
    rw [hstep, ih, Table.find?]
    by_cases hkey : k = key
    · subst hkey
      rw [if_pos rfl, Table.contains]
      cases hvar : vars.get? k with
      | none => simp [Table.get?_insert]
      | some old => simp [hvar]
    · rw [if_neg hkey]
      split
      · rfl
      · rw [Table.get?_insert, if_neg (Ne.symm hkey)]

/-- Where all variables have values, supplying some does nothing. -/
theorem supply_of_contains {values : List (String × Json)} {vars : Vars}
    (h : ∀ v ∈ values, vars.contains v.1 = true) : supply values vars = vars := by
  induction values with
  | nil => rfl
  | cons v rest ih =>
    obtain ⟨hv, hrest⟩ := List.forall_mem_cons.mp h
    have hstep : supply (v :: rest) vars =
        supply rest (if vars.contains v.1 then vars else vars.insert v.1 v.2) := rfl
    rw [hstep, if_pos hv, ih hrest]

end Vars

/-! ## The variables of a directory -/

namespace Directory

/-- A file with this text is a script, and it has this value for a variable. -/
def Declares (path : String) (f : String × Option String) (key : String) (value : Json) : Prop :=
  ∃ text file, f.2 = some text ∧ ScriptFile.ofText? text.toList = some file ∧
    file.fault? (filePath path f.1) = none ∧ (key, value) ∈ file.botvars

/-- The value that a file has for a variable, if the file is a script and has one. -/
def declared? (path : String) (f : String × Option String) (key : String) : Option Json :=
  if isSound path f then
    (f.2.bind fun text => ScriptFile.ofText? text.toList).bind fun file =>
      Table.find? key file.botvars
  else none

section Files

variable {path key : String} {f : String × Option String} {value : Json}

/-- A file has a value for a variable exactly if it declares it. -/
theorem declared?_eq_some_iff :
    declared? path f key = some value ↔ Declares path f key value := by
  obtain ⟨name, text⟩ := f
  rw [declared?, isSound, Declares]
  cases text with
  | none => simp [fault?]
  | some text =>
    cases hfile : ScriptFile.ofText? text.toList with
    | none => simp [fault?, hfile]
    | some file =>
      have hfind := Table.find?_eq_some_iff (k := key) (v := value)
        (ScriptFile.nodup_botvars hfile)
      simp [fault?, hfile, hfind]

/-- A script from a file comes from a file without a fault, with the setup of that file. -/
theorem setup_of_load {place : Nat} {script : Script}
    (h : load (filePath path f.1) f.1 f.2 place = .ok script) :
    isSound path f = true ∧ ∃ text file, f.2 = some text ∧
      ScriptFile.ofText? text.toList = some file ∧ script.setup = .supply file.botvars := by
  have hsound := error?_load (filePath path f.1) f.1 f.2 place
  rw [h] at hsound
  refine ⟨by rw [isSound, ← hsound]; rfl, ?_⟩
  unfold load at h
  split at h
  · contradiction
  · rename_i text htext
    split at h
    · contradiction
    · rename_i file hfile
      obtain ⟨rules, -, hscript⟩ := bind_eq_ok_iff.mp h
      obtain rfl := Except.ok.inj hscript
      exact ⟨text, file, htext, hfile, rfl⟩

/-- A file that is no script has no variables. -/
theorem declared?_of_load_eq_error {place : Nat} {error : ScriptError}
    (h : load (filePath path f.1) f.1 f.2 place = .error error) : declared? path f key = none := by
  have hfault := error?_load (filePath path f.1) f.1 f.2 place
  rw [h] at hfault
  rw [declared?, isSound, ← hfault]
  rfl

/-- The setup of a script from a file supplies the variables that the file has. -/
theorem exists_setup_of_load {place : Nat} {script : Script}
    (h : load (filePath path f.1) f.1 f.2 place = .ok script) :
    ∃ values, script.setup = .supply values ∧ (values.map Prod.fst).Nodup ∧
      ∀ key, declared? path f key = Table.find? key values := by
  obtain ⟨hsound, text, file, htext, hfile, hsetup⟩ := setup_of_load h
  refine ⟨file.botvars, hsetup, ScriptFile.nodup_botvars hfile, fun key => ?_⟩
  rw [declared?, if_pos hsound, htext, Option.bind_some, hfile, Option.bind_some]

end Files

/-- The entry of a source for the file at a place. -/
def entry (path : String) (f : (String × Option String) × Nat) : Except ScriptError Script :=
  load (filePath path f.1.1) f.1.1 f.1.2 f.2

section SetUp

variable (path description : String)

/-- The setups of some scripts come one after the other. -/
theorem setUp_cons (e : Except ScriptError Script) (rest : List (Except ScriptError Script))
    (vars : Vars) : Source.setUp ⟨description, e :: rest⟩ vars =
      Source.setUp ⟨description, rest⟩ (Source.setUp ⟨description, [e]⟩ vars) := rfl

/-- A file supplies the variables that it has, if it is a script. -/
theorem get?_setUp_entry (f : (String × Option String) × Nat) (vars : Vars) (key : String) :
    (Source.setUp ⟨description, [entry path f]⟩ vars).get? key =
      (vars.get? key).or (declared? path f.1 key) := by
  cases hload : entry path f with
  | error error =>
    rw [declared?_of_load_eq_error hload, Option.or_none]
    rfl
  | ok script =>
    obtain ⟨values, hsetup, -, hdeclared⟩ := exists_setup_of_load hload
    rw [hdeclared, ← Vars.get?_supply, ← hsetup]
    rfl

/-- Files that are loaded one after the other supply what the first of them has. -/
theorem get?_setUp_entries (files : List (String × Option String)) (start : Nat) (vars : Vars)
    (key : String) :
    (Source.setUp ⟨description, (files.zipIdx start).map (entry path)⟩ vars).get? key =
      (vars.get? key).or (files.findSome? fun f => declared? path f key) := by
  induction files generalizing start vars with
  | nil => simp [Source.setUp]
  | cons f rest ih =>
    rw [List.zipIdx_cons, List.map_cons, setUp_cons, ih, get?_setUp_entry, Option.or_assoc,
      List.findSome?_cons]
    cases declared? path f key <;> rfl

/-- Files whose variables all have values change nothing. -/
theorem setUp_entries_eq_self (files : List (String × Option String)) (start : Nat) {vars : Vars}
    (h : ∀ f ∈ files, ∀ key value, declared? path f key = some value → vars.contains key = true) :
    Source.setUp ⟨description, (files.zipIdx start).map (entry path)⟩ vars = vars := by
  induction files generalizing start with
  | nil => rfl
  | cons f rest ih =>
    obtain ⟨hf, hrest⟩ := List.forall_mem_cons.mp h
    have hentry : Source.setUp ⟨description, [entry path (f, start)]⟩ vars = vars := by
      cases hload : entry path (f, start) with
      | error error => rfl
      | ok script =>
        obtain ⟨values, hsetup, hnodup, hdeclared⟩ := exists_setup_of_load hload
        have hvalues : ∀ v ∈ values, vars.contains v.1 = true := by
          intro v hv
          refine hf v.1 v.2 ?_
          rw [hdeclared]
          exact (Table.find?_eq_some_iff hnodup).mpr hv
        show script.setup vars = vars
        rw [hsetup]
        exact Vars.supply_of_contains hvalues
    rw [List.zipIdx_cons, List.map_cons, setUp_cons, hentry, ih _ hrest]

variable {path}

/-- A script from a directory changes no variable that is there. -/
theorem setup_keeps {listing : Listing} {script : Script}
    (h : .ok script ∈ (source path listing).scripts) {vars : Vars} {key : String} {value : Json}
    (hvalue : vars.get? key = some value) :
    (script.setup vars).get? key = some value := by
  obtain ⟨f, -, place, hload⟩ := exists_load_of_mem_scripts h
  obtain ⟨values, hsetup, -, -⟩ := exists_setup_of_load hload
  rw [hsetup, Vars.get?_supply, hvalue, Option.some_or]

/-- The setups of a directory are those of its script files; without its entries there are none. -/
theorem setUp_source (listing : Listing) (vars : Vars) :
    (source path listing).setUp vars =
      Source.setUp ⟨path ++ "/*.json", (scriptFiles listing.entries).zipIdx.map (entry path)⟩
        vars := by
  cases listing with
  | missing => simp [source, Source.setUp, scriptFiles, Listing.entries]
  | unlisted => simp [source, Source.setUp, scriptFiles, Listing.entries]
  | listed entries => rfl

/-- The setups of all scripts of a directory, in one search for a variable. -/
theorem get?_setUp (listing : Listing) (vars : Vars) (key : String) :
    ((source path listing).setUp vars).get? key =
      (vars.get? key).or
        ((scriptFiles listing.entries).findSome? fun f => declared? path f key) := by
  rw [setUp_source, get?_setUp_entries]

/-- The setups of the scripts of a directory change nothing any more where they have been run. -/
theorem setUp_eq_self (listing : Listing) {vars vars' : Vars}
    (h : ∀ key, ((source path listing).setUp vars).contains key = true →
      vars'.contains key = true) :
    (source path listing).setUp vars' = vars' := by
  rw [setUp_source]
  refine setUp_entries_eq_self path _ (scriptFiles listing.entries) 0
    fun f hf key value hvalue => ?_
  apply h
  rw [Table.contains, get?_setUp, Option.isSome_or, Bool.or_eq_true]
  exact .inr (List.findSome?_isSome_iff.mpr ⟨f, hf, by rw [hvalue]; rfl⟩)

end SetUp

end Directory

namespace Engine

/-- The engine after the scripts of a directory have been loaded. -/
def loadDirectory (path : String) (listing : Directory.Listing) (e : Engine) : Engine :=
  (e.load (Directory.source path listing)).2

/-- Script files overwrite no bot variables. A load from a directory leaves every variable as it was
that had a value. Every other one has a value afterwards if a file that is a script has one for it,
and then it is the one of the first such file, by the order of their names. No load of the directory
changes anything where all these variables are still there. No single script changes a variable that
is there, and so debug output stays switched on or off if the variable that does so is there. -/
theorem loadDirectory_overwrites_nothing (e : Engine) (path : String)
    (listing : Directory.Listing) :
    (∀ key value, e.botvars.get? key = some value →
      (e.loadDirectory path listing).botvars.get? key = some value) ∧
    (∀ key value, e.botvars.get? key = none →
      ((e.loadDirectory path listing).botvars.get? key = some value ↔
        ∃ before f behind, Directory.scriptFiles listing.entries = before ++ f :: behind ∧
          Directory.Declares path f key value ∧
          ∀ g ∈ before, ∀ other, ¬ Directory.Declares path g key other)) ∧
    ((Directory.scriptFiles listing.entries).Pairwise fun f g => f.1 ≤ g.1) ∧
    (∀ name text, (name, text) ∈ Directory.scriptFiles listing.entries ↔
      (name, .file text) ∈ listing.entries ∧ Directory.isScriptName name = true) ∧
    (∀ e' : Engine,
      (∀ key, (e.loadDirectory path listing).botvars.contains key = true →
        e'.botvars.contains key = true) →
      (e'.loadDirectory path listing).botvars = e'.botvars) ∧
    (∀ script, .ok script ∈ (Directory.source path listing).scripts →
      ∀ vars key value, vars.get? key = some value →
        (script.setup vars).get? key = some value) ∧
    (e.botvars.contains debugKey = true →
      (e.loadDirectory path listing).debugEnabled = e.debugEnabled) := by
  have hget : ∀ key, (e.loadDirectory path listing).botvars.get? key =
      (e.botvars.get? key).or ((Directory.scriptFiles listing.entries).findSome? fun f =>
        Directory.declared? path f key) := by
    intro key
    rw [loadDirectory, botvars_load, Directory.get?_setUp]
  have hkept : ∀ key value, e.botvars.get? key = some value →
      (e.loadDirectory path listing).botvars.get? key = some value := by
    intro key value hvalue
    rw [hget, hvalue, Option.some_or]
  refine ⟨hkept, ?_, Directory.pairwise_scriptFiles _, fun _ _ => Directory.mem_scriptFiles_iff,
    ?_, ?_, ?_⟩
  · intro key value hnone
    rw [hget, hnone, Option.none_or, List.findSome?_eq_some_iff]
    simp only [Directory.declared?_eq_some_iff, Option.eq_none_iff_forall_ne_some, ne_eq]
  · intro e' hthere
    simp only [loadDirectory, botvars_load] at hthere ⊢
    exact Directory.setUp_eq_self listing hthere
  · intro script hscript vars key value hvalue
    exact Directory.setup_keeps hscript hvalue
  · intro hdebug
    obtain ⟨value, hvalue⟩ := Table.contains_iff.mp hdebug
    have hconfig : (e.loadDirectory path listing).config = e.config := (load_frame _ e).1
    rw [debugEnabled, debugEnabled, hconfig, hkept debugKey value hvalue, hvalue]

end Engine

end Rejoinder

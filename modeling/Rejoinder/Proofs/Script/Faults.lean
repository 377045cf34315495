import Mathlib.Data.List.Sort
import Mathlib.Order.Monotone.Basic
import Rejoinder.Proofs.Outcome
import Rejoinder.Proofs.Topic.Relabel
import Rejoinder.Script.Directory

/-!
# Files that are no scripts

A file of a directory is no script if it cannot be read, if its text is not of the shape of a script
file, or if one of its rules has both or neither of a reply and a redirect (`Directory.fault?`).
What is wrong with a file depends on that file alone. So if the files with faults are taken out of a
directory, the scripts that are left are those that were there before, in the same order
(`Directory.exists_renumbering_source`). Only their places are counted anew, and with the places the
identities of their handlers change.
-/

set_option autoImplicit false

namespace Rejoinder

/-! ## Lists from which some members are taken out -/

section Lists

variable {α : Type}

/-- A list falls in one way into members without a property and members with it behind them. -/
theorem append_inj_of_split {q : α → Bool} {l₁ l₂ m₁ m₂ : List α} (h : l₁ ++ l₂ = m₁ ++ m₂)
    (hl₁ : ∀ a ∈ l₁, q a = false) (hl₂ : ∀ a ∈ l₂, q a = true) (hm₁ : ∀ a ∈ m₁, q a = false)
    (hm₂ : ∀ a ∈ m₂, q a = true) : l₁ = m₁ ∧ l₂ = m₂ := by
  have hbehind : ∀ k₁ k₂ : List α, (∀ a ∈ k₁, q a = false) → (∀ a ∈ k₂, q a = true) →
      (k₁ ++ k₂).filter q = k₂ := by
    intro k₁ k₂ hk₁ hk₂
    rw [List.filter_append, List.filter_eq_self.mpr hk₂,
      List.filter_eq_nil_iff.mpr fun a ha => by simp [hk₁ a ha], List.nil_append]
  have hsame : l₂ = m₂ := by rw [← hbehind l₁ l₂ hl₁ hl₂, h, hbehind m₁ m₂ hm₁ hm₂]
  subst hsame
  exact ⟨List.append_cancel_right h, rfl⟩

/-- Sorting and taking members out go together. -/
theorem filter_mergeSort {le : α → α → Bool} (htrans : ∀ a b c, le a b → le b c → le a c)
    (htotal : ∀ a b, le a b || le b a) (p : α → Bool) (l : List α) :
    (l.mergeSort le).filter p = (l.filter p).mergeSort le := by
  induction l with
  | nil => simp
  | cons a rest ih =>
    obtain ⟨front, back, hcons, hrest, hfront⟩ := List.mergeSort_cons htrans htotal a rest
    have hsorted := List.pairwise_mergeSort htrans htotal (a :: rest)
    rw [hcons, List.pairwise_append, List.pairwise_cons] at hsorted
    rw [hrest, List.filter_append] at ih
    cases hp : p a with
    | false => simp [hcons, hp, ih]
    | true =>
      obtain ⟨front', back', hcons', hrest', hfront'⟩ :=
        List.mergeSort_cons htrans htotal a (rest.filter p)
      have hsorted' := List.pairwise_mergeSort htrans htotal (a :: rest.filter p)
      rw [hcons', List.pairwise_append, List.pairwise_cons] at hsorted'
      -- Both times `a` stands right in front of the members that may stand behind it.
      have hsplit : front.filter p = front' ∧ back.filter p = back' := by
        refine append_inj_of_split (q := le a) (ih.trans hrest') ?_ ?_ ?_ ?_
        · intro b hb
          simpa using hfront b (List.mem_of_mem_filter hb)
        · intro b hb
          exact hsorted.2.1.1 b (List.mem_of_mem_filter hb)
        · intro b hb
          simpa using hfront' b hb
        · exact hsorted'.2.1.1
      rw [hcons, List.filter_cons_of_pos hp, hcons', ← hsplit.1, ← hsplit.2, List.filter_append,
        List.filter_cons_of_pos hp]

/-- The members that are left in a list are those of the list, in order, with their places
renumbered. -/
theorem exists_renumbering (p : α → Bool) (l : List α) :
    ∃ place : Nat → Nat, StrictMono place ∧
      (l.filter p).zipIdx.map (fun x => (x.1, place x.2)) = l.zipIdx.filter fun x => p x.1 := by
  induction l with
  | nil => exact ⟨id, strictMono_id, rfl⟩
  | cons a rest ih =>
    obtain ⟨place, hmono, hplace⟩ := ih
    have hshift : ∀ l : List α, l.zipIdx 1 = l.zipIdx.map fun x => (x.1, x.2 + 1) :=
      fun _ => List.zipIdx_succ
    have hrest : (rest.zipIdx 1).filter (fun x => p x.1) =
        (rest.filter p).zipIdx.map fun x => (x.1, place x.2 + 1) := by
      rw [hshift, List.filter_map]
      have hcomp : ((fun x : α × Nat => p x.1) ∘ fun x : α × Nat => (x.1, x.2 + 1)) =
          fun x => p x.1 := rfl
      rw [hcomp, ← hplace, List.map_map]
      rfl
    -- If the head is left out all places move up by one; if it is kept, all but its own.
    rw [List.zipIdx_cons]
    cases hp : p a with
    | false =>
      refine ⟨fun k => place k + 1, fun i j hij => Nat.succ_lt_succ (hmono hij), ?_⟩
      rw [List.filter_cons_of_neg (by simp [hp]), List.filter_cons_of_neg (by simp [hp]), hrest]
    | true =>
      refine ⟨fun k => k.casesOn 0 fun k => place k + 1, ?_, ?_⟩
      · apply strictMono_nat_of_lt_succ
        intro k
        cases k with
        | zero => exact Nat.succ_pos _
        | succ k => exact Nat.succ_lt_succ (hmono (Nat.lt_succ_self k))
      · have hhead : ((a, 0) :: rest.zipIdx 1).filter (fun x => p x.1) =
            (a, 0) :: (rest.zipIdx 1).filter fun x => p x.1 := List.filter_cons_of_pos hp
        rw [hhead, hrest, List.filter_cons_of_pos hp, List.zipIdx_cons, List.map_cons, hshift,
          List.map_map]
        rfl

end Lists

/-! ## What is wrong with a file -/

/-- What is wrong with the response of a rule, if it does not have exactly one. -/
def FileRule.fault? (r : FileRule) : Option ResponseFault :=
  match r.reply.isSome, r.redirect.isSome with
  | true, true => some .both
  | false, false => some .neither
  | _, _ => none

namespace ScriptFile

/-- What is wrong with the first rule of a file that has a fault. -/
def fault? (path : String) (f : ScriptFile) : Option ScriptError :=
  f.rules.zipIdx.findSome? fun r => r.1.fault?.map (.invalid path (ruleName r.2 r.1))

/-- A rule has no declaration exactly if its response has a fault, which the error tells. -/
theorem error?_declaration (path : String) (script : Nat) (r : FileRule) (place : Nat) :
    error? (declaration path script r place) =
      r.fault?.map (.invalid path (ruleName place r)) := by
  have hprogram : error? (program r) = r.fault? := by
    unfold program FileRule.fault?
    cases r.reply <;> cases r.redirect <;> rfl
  rw [← hprogram, declaration]
  cases program r <;> rfl

/-- A file is no script exactly if one of its rules has a fault, and the first one is told. -/
theorem error?_toScript (path name : String) (place : Nat) (f : ScriptFile) :
    error? (f.toScript path name place) = f.fault? path := by
  have hrules := error?_mapM (fun r : FileRule × Nat => declaration path place r.1 r.2)
    f.rules.zipIdx
  simp only [error?_declaration] at hrules
  rw [fault?, ← hrules, toScript]
  cases f.rules.zipIdx.mapM fun r => declaration path place r.1 r.2 <;> rfl

/-- A declaration depends on the place of its script in the identity of its handler only. -/
theorem declaration_renumber (place : Nat → Nat) (path : String) (script : Nat) (r : FileRule)
    (k : Nat) : declaration path (place script) r k =
      (declaration path script r k).map (Declaration.relabel (Identity.renumber place)) := by
  unfold declaration
  cases program r <;> rfl

/-- A script depends on its place in a source in the identities of its handlers only. -/
theorem toScript_renumber (place : Nat → Nat) (path name : String) (k : Nat) (f : ScriptFile) :
    f.toScript path name (place k) =
      (f.toScript path name k).map (Script.relabel (Identity.renumber place)) := by
  simp only [toScript, declaration_renumber, mapM_map]
  cases f.rules.zipIdx.mapM fun r => declaration path k r.1 r.2 with
  | error error => rfl
  | ok rules =>
    simp [Except.map, Script.relabel, Declaration.relabel, Function.comp_def, Pure.pure,
      Except.pure]

end ScriptFile

namespace Directory

/-- What is wrong with a file that has this text, if it can be read at all. -/
def fault? (path : String) : Option String → Option ScriptError
  | none => some (.unreadable path)
  | some text =>
    match ScriptFile.ofText? text.toList with
    | none => some (.malformed path)
    | some file => file.fault? path

/-- Whether a file with a text is a script. -/
def isSound (path : String) (f : String × Option String) : Bool :=
  (fault? (filePath path f.1) f.2).isNone

/-- A directory without the files that should be scripts and are none. -/
def withoutFaults (path : String) (entries : List (String × DirectoryEntry)) :
    List (String × DirectoryEntry) :=
  entries.filter fun e =>
    match e.2 with
    | .file text => !isScriptName e.1 || isSound path (e.1, text)
    | .other => true

/-- Loading a file fails with the fault of the file, if it has one. -/
theorem error?_load (path name : String) (text : Option String) (place : Nat) :
    error? (load path name text place) = fault? path text := by
  cases text with
  | none => rfl
  | some text =>
    simp only [load, fault?]
    cases ScriptFile.ofText? text.toList with
    | none => rfl
    | some file => exact file.error?_toScript path _ place

/-- A loaded script depends on its place in a source in the identities of its handlers only. -/
theorem load_renumber (place : Nat → Nat) (path name : String) (text : Option String) (k : Nat) :
    load path name text (place k) =
      (load path name text k).map (Script.relabel (Identity.renumber place)) := by
  cases text with
  | none => rfl
  | some text =>
    simp only [load]
    cases ScriptFile.ofText? text.toList with
    | none => rfl
    | some file => exact file.toScript_renumber place path _ k

/-- A script of a directory is loaded from one of its script files. -/
theorem exists_load_of_mem_scripts {path : String} {listing : Listing} {script : Script}
    (h : .ok script ∈ (source path listing).scripts) :
    ∃ f ∈ scriptFiles listing.entries, ∃ place,
      load (filePath path f.1) f.1 f.2 place = .ok script := by
  cases listing with
  | missing => simp [source] at h
  | unlisted => simp [source] at h
  | listed entries =>
    obtain ⟨f, hf, hload⟩ := List.mem_map.mp h
    exact ⟨f.1, List.fst_mem_of_mem_zipIdx hf, f.2, hload⟩

/-- The order of files by their names is transitive. -/
theorem name_le_trans (a b c : String × Option String) (hab : (!decide (b.1 < a.1)) = true)
    (hbc : (!decide (c.1 < b.1)) = true) : (!decide (c.1 < a.1)) = true := by
  simp only [Bool.not_eq_true', decide_eq_false_iff_not, String.not_lt] at *
  exact String.le_trans hab hbc

/-- The order of files by their names is total. -/
theorem name_le_total (a b : String × Option String) :
    (!decide (b.1 < a.1) || !decide (a.1 < b.1)) = true := by
  simp only [Bool.or_eq_true, Bool.not_eq_true', decide_eq_false_iff_not, String.not_lt]
  exact String.le_total _ _

/-- The script files of a directory are its regular files whose names are those of scripts. -/
theorem mem_scriptFiles_iff {entries : List (String × DirectoryEntry)} {name : String}
    {text : Option String} :
    (name, text) ∈ scriptFiles entries ↔
      (name, .file text) ∈ entries ∧ isScriptName name = true := by
  rw [scriptFiles, List.mem_mergeSort, List.mem_filterMap]
  constructor
  · rintro ⟨⟨name', entry⟩, hmem, hfile⟩
    cases entry with
    | other => contradiction
    | file text' =>
      dsimp only at hfile
      split at hfile
      · rename_i hname
        obtain ⟨rfl, rfl⟩ := Prod.mk.inj (Option.some.inj hfile)
        exact ⟨hmem, hname⟩
      · contradiction
  · rintro ⟨hmem, hname⟩
    exact ⟨(name, .file text), hmem, if_pos hname⟩

/-- The script files of a directory are in ascending order of their names. -/
theorem pairwise_scriptFiles (entries : List (String × DirectoryEntry)) :
    (scriptFiles entries).Pairwise fun f g => f.1 ≤ g.1 := by
  refine (List.pairwise_mergeSort name_le_trans name_le_total _).imp ?_
  intro f g h
  simpa only [Bool.not_eq_true', decide_eq_false_iff_not, String.not_lt] using h

/-- The script files that are left are those without a fault. -/
theorem scriptFiles_withoutFaults (path : String) (entries : List (String × DirectoryEntry)) :
    scriptFiles (withoutFaults path entries) = (scriptFiles entries).filter (isSound path) := by
  rw [scriptFiles, scriptFiles, filter_mergeSort name_le_trans name_le_total, withoutFaults,
    List.filterMap_filter, List.filter_filterMap]
  congr 1
  apply List.filterMap_congr
  rintro ⟨name, entry⟩ _
  cases entry with
  | other => rfl
  | file text =>
    cases isScriptName name <;> cases hsound : isSound path (name, text) <;>
      simp [hsound, Option.filter_some]

/-- The failures of a directory are the faults of its script files, in order. -/
theorem filterMap_error?_source (path : String) (entries : List (String × DirectoryEntry)) :
    (source path (.listed entries)).scripts.filterMap error? =
      (scriptFiles entries).filterMap fun f => fault? (filePath path f.1) f.2 := by
  simp only [source, List.filterMap_map]
  have hload : (error? ∘ fun f : (String × Option String) × Nat =>
      load (filePath path f.1.1) f.1.1 f.1.2 f.2) =
        (fun f => fault? (filePath path f.1) f.2) ∘ Prod.fst := by
    funext f
    exact error?_load _ _ _ _
  rw [hload, ← List.filterMap_map, List.zipIdx_map_fst]

/-- Without the files with faults, the scripts of a directory are the same, with the places of the
files counted anew. -/
theorem exists_renumbering_source (path : String) (entries : List (String × DirectoryEntry)) :
    ∃ place : Nat → Nat, StrictMono place ∧
      (source path (.listed entries)).scripts.filterMap Except.toOption =
        ((source path (.listed (withoutFaults path entries))).scripts.filterMap Except.toOption).map
          (Script.relabel (Identity.renumber place)) := by
  obtain ⟨place, hmono, hplace⟩ := exists_renumbering (isSound path) (scriptFiles entries)
  let script := fun f : (String × Option String) × Nat =>
    (load (filePath path f.1.1) f.1.1 f.1.2 f.2).toOption
  have hfaulty : ∀ f, (if isSound path f.1 = true then script f else none) = script f := by
    intro f
    split
    · rfl
    · rename_i hfault
      have herror := error?_load (filePath path f.1.1) f.1.1 f.1.2 f.2
      cases hload : load (filePath path f.1.1) f.1.1 f.1.2 f.2 with
      | error error => simp only [script, hload, Except.toOption]
      | ok s =>
        rw [hload] at herror
        rw [isSound, ← herror] at hfault
        contradiction
  have hrenumber : ∀ f, script (f.1, place f.2) =
      (script f).map (Script.relabel (Identity.renumber place)) := by
    intro f
    simp only [script, load_renumber]
    cases load (filePath path f.1.1) f.1.1 f.1.2 f.2 <;> rfl
  refine ⟨place, hmono, ?_⟩
  simp only [source, List.filterMap_map, scriptFiles_withoutFaults, List.map_filterMap]
  calc (scriptFiles entries).zipIdx.filterMap script
      = ((scriptFiles entries).zipIdx.filter fun f => isSound path f.1).filterMap script := by
        simp only [List.filterMap_filter, hfaulty]
    _ = ((scriptFiles entries).filter (isSound path)).zipIdx.filterMap
          fun f => (script f).map (Script.relabel (Identity.renumber place)) := by
        rw [← hplace, List.filterMap_map]
        exact List.filterMap_congr fun f _ => hrenumber f

/-- What is left of a directory has no faults. -/
theorem filterMap_error?_withoutFaults (path : String)
    (entries : List (String × DirectoryEntry)) :
    (source path (.listed (withoutFaults path entries))).scripts.filterMap error? = [] := by
  rw [filterMap_error?_source, scriptFiles_withoutFaults, List.filterMap_eq_nil_iff]
  intro f hf
  exact Option.isNone_iff_eq_none.mp (List.mem_filter.mp hf).2

end Directory

end Rejoinder

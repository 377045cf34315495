import Mathlib
import Rejoinder.Proofs.Regex.Firsts
import Rejoinder.Proofs.Regex.Ways

/-!
# Keeping one way to each place

On one text a place is told by the number of characters that are left, so an array of `Reached`
places stands for a list of what has been seen (`Reached.Represents`). Hence `distinct` keeps the
first ways to their places, and so does `spread`: the places behind one that has been reached by
going on through a set have all been reached before (`ClosedUnder`).
-/

set_option autoImplicit false

namespace Rejoinder.Regex

variable {text : Text}

/-- All ways are on one text. -/
def OnText (text : Text) (ts : List Thread) : Prop := ∀ t ∈ ts, t.rest <:+ text

/-- The ways are on one text, each at a place of its own. -/
structure Settled (text : Text) (ts : List Thread) : Prop where
  onText : OnText text ts
  apart : (ts.map Thread.rest).Nodup

/-- The first way to each place of a text leaves every way with a place of its own. -/
theorem Settled.firsts {ts : List Thread} (h : OnText text ts) :
    Settled text (firsts Thread.rest [] ts) :=
  ⟨fun t ht => h t (mem_of_mem_firsts ht).1, nodup_map_firsts _ _⟩

/-- Two ends of one text are equal if they are equally long. -/
theorem eq_of_suffix_of_length {r s : Text} (hr : r <:+ text) (hs : s <:+ text)
    (h : r.length = s.length) : r = s :=
  (List.suffix_of_suffix_length_le hr hs h.le).eq_of_length h

/-! ## Arrays of reached places -/

namespace Reached

/-- The places of a text that have been reached are those that have been seen. -/
def Represents (reached : Reached) (text : Text) (seen : List Text) : Prop :=
  ∀ rest, rest <:+ text → (reached.holds rest.length = true ↔ rest ∈ seen)

/-- Where no place has been reached, none has been seen. -/
theorem represents_none (ps : List Place) : (none ps).Represents text [] := by
  intro rest _
  simp [holds_none]

/-- A place that is added has been reached. -/
theorem holds_add_self {reached : Reached} {p : Place} (h : p.left < reached.size) :
    (reached.add p).holds p.left = true := by
  simp [add, holds, Array.getD_eq_getD_getElem?, h]

/-- Adding a place makes no room for more of them. -/
theorem size_add (reached : Reached) (p : Place) : (reached.add p).size = reached.size := by
  simp [add]

/-- Adding a place stands for having seen it. -/
theorem Represents.add {reached : Reached} {seen : List Text} {p : Place}
    (h : reached.Represents text seen) (hp : p.rest <:+ text) (hsize : p.left < reached.size) :
    (reached.add p).Represents text (p.rest :: seen) := by
  intro rest hrest
  by_cases hl : p.left = rest.length
  · have heq : rest = p.rest := eq_of_suffix_of_length hrest hp (hl.symm.trans p.left_eq)
    rw [← hl, holds_add_self hsize, heq]
    simp
  · have hne : rest ≠ p.rest := by
      rintro rfl
      exact hl p.left_eq
    rw [holds_add_of_ne hl, h rest hrest, List.mem_cons]
    simp [hne]

/-- Adding places makes no room for more of them. -/
theorem size_foldl_add (reached : Reached) (ps : List Place) :
    (ps.foldl add reached).size = reached.size := by
  induction ps generalizing reached with
  | nil => rfl
  | cons p ps ih => rw [List.foldl_cons, ih, size_add]

/-- Adding places stands for having seen them. -/
theorem Represents.foldl_add {reached : Reached} {seen : List Text} {ps : List Place}
    (h : reached.Represents text seen) (hps : ∀ p ∈ ps, p.rest <:+ text)
    (hsize : ∀ p ∈ ps, p.left < reached.size) :
    (ps.foldl Reached.add reached).Represents text (ps.map Place.rest ++ seen) := by
  induction ps generalizing reached seen with
  | nil => exact h
  | cons p ps ih =>
    obtain ⟨hp, hps⟩ := List.forall_mem_cons.mp hps
    obtain ⟨hpsize, hsize⟩ := List.forall_mem_cons.mp hsize
    have hadd := ih (h.add hp hpsize) hps (by rwa [size_add])
    intro rest hrest
    rw [List.foldl_cons, hadd rest hrest]
    simp only [List.map_cons, List.mem_append, List.mem_cons]
    grind

/-- There is room for all the places that were counted. -/
theorem lt_size_none {ps : List Place} {p : Place} (h : p ∈ ps) : p.left < (none ps).size := by
  have hle : ∀ (ps : List Place) (n : Nat),
      n ≤ ps.foldl (fun n p => max n (p.left + 1)) n ∧
        ∀ p ∈ ps, p.left < ps.foldl (fun n p => max n (p.left + 1)) n := by
    intro ps
    induction ps with
    | nil => simp
    | cons q ps ih =>
      intro n
      obtain ⟨hn, hps⟩ := ih (max n (q.left + 1))
      refine ⟨by rw [List.foldl_cons]; omega, ?_⟩
      refine List.forall_mem_cons.mpr ⟨by rw [List.foldl_cons]; omega, ?_⟩
      intro p hp
      exact hps p hp
  rw [none, Array.size_replicate]
  exact (hle ps 0).2 p h

end Reached

/-! ## Keeping the first way -/

/-- Telling places apart by the characters that are left keeps the first way to each of them. -/
theorem distinctFrom_eq_firsts {reached : Reached} {seen : List Text} {ts : List Thread}
    (hon : OnText text ts) (hsize : ∀ t ∈ ts, t.place.left < reached.size)
    (h : reached.Represents text seen) :
    distinctFrom reached ts = firsts Thread.rest seen ts := by
  induction ts generalizing reached seen with
  | nil => rfl
  | cons t ts ih =>
    obtain ⟨ht, hon⟩ := List.forall_mem_cons.mp hon
    obtain ⟨htsize, hsize⟩ := List.forall_mem_cons.mp hsize
    have hseen : reached.holds t.place.left = true ↔ t.rest ∈ seen := by
      rw [t.place.left_eq]
      exact h t.rest ht
    rw [distinctFrom]
    by_cases hmem : t.rest ∈ seen
    · rw [if_pos (hseen.mpr hmem), firsts_cons_of_mem hmem]
      exact ih hon hsize h
    · rw [if_neg (fun hr => hmem (hseen.mp hr)), firsts_cons_of_not_mem hmem,
        ih hon (by rwa [Reached.size_add]) (h.add ht htsize)]
      rfl

/-- Of several ways to one place the first one is kept. -/
theorem distinct_eq_firsts {ts : List Thread} (hon : OnText text ts) :
    distinct ts = firsts Thread.rest [] ts := by
  unfold distinct
  split
  · rfl
  · simp [firsts]
  · refine distinctFrom_eq_firsts hon ?_ (Reached.represents_none _)
    intro t ht
    exact Reached.lt_size_none (List.mem_map_of_mem ht)

/-! ## Going on through a set -/

/-- Whoever has reached a place has also reached what lies behind it through the set. -/
def ClosedUnder (set : CharSet) (seen : List Text) : Prop :=
  ∀ c rest, set.holds c = true → c :: rest ∈ seen → rest ∈ seen

/-- Whoever has reached a run of members has also reached what lies behind it. -/
theorem ClosedUnder.mem_of_append {set : CharSet} {seen : List Text} (h : ClosedUnder set seen)
    {run rest : Text} (hrun : ∀ c ∈ run, set.holds c = true) (hmem : run ++ rest ∈ seen) :
    rest ∈ seen := by
  induction run with
  | nil => exact hmem
  | cons c run ih =>
    obtain ⟨hc, hrun⟩ := List.forall_mem_cons.mp hrun
    exact ih hrun (h c _ hc hmem)

/-- The places behind a place through a set, with others that are closed under it, are closed under
it. -/
theorem ClosedUnder.placesBehind_append {set : CharSet} {seen : List Text}
    (h : ClosedUnder set seen) (rest : Text) :
    ClosedUnder set ((placesBehind set rest).map Place.rest ++ seen) := by
  intro c behind hc hmem
  rw [List.mem_append] at hmem ⊢
  rcases hmem with hmem | hmem
  · obtain ⟨q, hq, hrest⟩ := List.mem_map.mp hmem
    obtain ⟨run, hne, hrun, hsplit⟩ := mem_placesBehind.mp hq
    refine Or.inl (List.mem_map.mpr ⟨.ofText behind, ?_, rfl⟩)
    refine mem_placesBehind.mpr ⟨run ++ [c], by simp, ?_, by rw [hsplit, hrest]; simp; rfl⟩
    intro d hd
    rcases List.mem_append.mp hd with hd | hd
    · exact hrun d hd
    · rw [List.mem_singleton.mp hd]
      exact hc
  · exact Or.inr (h c behind hc hmem)

/-- Every place behind is nearer to the end. -/
theorem left_lt_of_mem_placesBehind {set : CharSet} {rest : Text} {q : Place}
    (h : q ∈ placesBehind set rest) : q.left < rest.length := by
  obtain ⟨run, hne, _, hrest⟩ := mem_placesBehind.mp h
  have hpos := List.length_pos_iff.mpr hne
  rw [q.left_eq, hrest, List.length_append]
  omega

/-- The places behind a place through a set are distinct. -/
theorem nodup_placesBehind (set : CharSet) (rest : Text) :
    ((placesBehind set rest).map Place.rest).Nodup := by
  induction rest with
  | nil => simp [placesBehind]
  | cons c rest ih =>
    rw [placesBehind]
    split
    · rw [List.map_cons, List.nodup_cons]
      refine ⟨?_, ih⟩
      intro hmem
      obtain ⟨q, hq, hrest⟩ := List.mem_map.mp hmem
      have hlt := left_lt_of_mem_placesBehind hq
      have hleft : q.left = rest.length := by rw [q.left_eq, hrest]; rfl
      omega
    · simp

/-- Going on stops where another way has gone on before: nothing new lies behind that place. -/
theorem placesAfter_eq_filter {set : CharSet} {reached : Reached} {seen : List Text}
    (hclosed : ClosedUnder set seen) (h : reached.Represents text seen) (rest : Text) (left : Nat)
    (hleft : left = rest.length) (hrest : rest <:+ text) :
    placesAfter set reached rest left hleft =
      (placesBehind set rest).filter (·.rest ∉ seen) := by
  induction rest generalizing left with
  | nil => rfl
  | cons c rest ih =>
    have hbehind : rest <:+ text := (List.suffix_cons c rest).trans hrest
    have hseen : reached.holds (left - 1) = true ↔ rest ∈ seen := by
      rw [hleft, List.length_cons, Nat.add_sub_cancel]
      exact h rest hbehind
    rw [placesAfter, placesBehind]
    by_cases hc : set.holds c = true
    · rw [if_pos hc]
      -- If the next place has been seen, so has everything behind it.
      by_cases hmem : rest ∈ seen
      · have hall : ∀ q ∈ placesBehind set rest, q.rest ∈ seen := by
          intro q hq
          obtain ⟨run, _, hrun, hsplit⟩ := mem_placesBehind.mp hq
          exact hclosed.mem_of_append hrun (hsplit ▸ hmem)
        have hnone : (Place.ofText rest :: placesBehind set rest).filter (·.rest ∉ seen) = [] := by
          refine List.filter_eq_nil_iff.mpr ?_
          intro q hq
          rcases List.mem_cons.mp hq with rfl | hq
          · exact fun hd => of_decide_eq_true hd hmem
          · exact fun hd => of_decide_eq_true hd (hall q hq)
        rw [if_neg (by simp [hseen.mpr hmem]), hnone]
      · have hnot : reached.holds (left - 1) = false :=
          Bool.eq_false_iff.mpr fun hr => hmem (hseen.mp hr)
        have hkeep : (Place.ofText rest :: placesBehind set rest).filter (·.rest ∉ seen) =
            Place.ofText rest :: (placesBehind set rest).filter (·.rest ∉ seen) :=
          List.filter_cons_of_pos (decide_eq_true hmem)
        subst hleft
        rw [if_pos (by simp only [hc, hnot]; rfl), hkeep]
        exact congrArg _ (ih rest.length rfl hbehind)
    · rw [if_neg hc, if_neg (by simp [hc])]
      rfl

/-- The ways through one or more members of a set lead to the places behind it, the nearest first or
last. -/
theorem map_rest_ways_many (set : CharSet) (lazy : Bool) (whole : Nat) (t : Thread) :
    ((Step.many set lazy).ways whole t).map Thread.rest =
      if lazy then (placesBehind set t.rest).map Place.rest
      else ((placesBehind set t.rest).map Place.rest).reverse := by
  cases lazy
  · exact (List.map_map ..).trans (List.map_reverse ..)
  · exact List.map_map ..

/-- What a way through a repetition adds to the places that have been seen. -/
theorem firsts_ways_many (set : CharSet) (lazy : Bool) (whole : Nat) (t : Thread)
    (seen : List Text) :
    firsts Thread.rest seen ((Step.many set lazy).ways whole t) =
      (if lazy then (placesBehind set t.rest).filter (·.rest ∉ seen)
        else ((placesBehind set t.rest).filter (·.rest ∉ seen)).reverse).map t.to := by
  have hnodup : (((Step.many set lazy).ways whole t).map Thread.rest).Nodup := by
    rw [map_rest_ways_many]
    split
    · exact nodup_placesBehind set t.rest
    · exact List.nodup_reverse.mpr (nodup_placesBehind set t.rest)
  rw [firsts_eq_filter hnodup (p := fun u => u.rest ∉ seen) (by simp)]
  cases lazy
  · show ((placesBehind set t.rest).reverse.map t.to).filter _ = _
    rw [List.filter_map, List.filter_reverse]
    rfl
  · show ((placesBehind set t.rest).map t.to).filter _ = _
    rw [List.filter_map]
    rfl

/-- Where nothing is missed behind what has been seen, letting ways go on side by side keeps the
first way to each place, as going on one after the other does. -/
theorem spreadFrom_eq_firsts {set : CharSet} {lazy : Bool} {reached : Reached} {seen : List Text}
    {whole : Nat} {ts : List Thread} (hon : OnText text ts)
    (hsize : ∀ t ∈ ts, t.place.left < reached.size) (hclosed : ClosedUnder set seen)
    (h : reached.Represents text seen) :
    spreadFrom set lazy reached ts =
      firsts Thread.rest seen (ts.flatMap ((Step.many set lazy).ways whole)) := by
  induction ts generalizing reached seen with
  | nil => rfl
  | cons t ts ih =>
    obtain ⟨ht, hon⟩ := List.forall_mem_cons.mp hon
    obtain ⟨htsize, hsize⟩ := List.forall_mem_cons.mp hsize
    have hnear : placesAfter set reached t.place.rest t.place.left t.place.left_eq =
        (placesBehind set t.rest).filter (·.rest ∉ seen) :=
      placesAfter_eq_filter hclosed h _ _ _ ht
    have hadd : (((placesBehind set t.rest).filter (·.rest ∉ seen)).foldl Reached.add
        reached).Represents text
          (((placesBehind set t.rest).filter (·.rest ∉ seen)).map Place.rest ++ seen) := by
      refine h.foldl_add ?_ ?_
      · intro q hq
        obtain ⟨run, _, _, hrest⟩ := mem_placesBehind.mp (List.mem_filter.mp hq).1
        exact List.IsSuffix.trans ⟨run, hrest.symm⟩ ht
      · intro q hq
        have hlt := left_lt_of_mem_placesBehind (List.mem_filter.mp hq).1
        have hleft : t.place.left = t.rest.length := t.place.left_eq
        omega
    -- What is left out has been seen, so all places behind `t` have been reached afterwards.
    have hreached : (((placesBehind set t.rest).filter (·.rest ∉ seen)).foldl Reached.add
        reached).Represents text ((placesBehind set t.rest).map Place.rest ++ seen) := by
      intro rest hrest
      rw [hadd rest hrest]
      simp only [List.mem_append, List.mem_map, List.mem_filter, decide_eq_true_eq]
      grind
    have hkeys : ∀ r, r ∈ ((Step.many set lazy).ways whole t).map Thread.rest ++ seen ↔
        r ∈ (placesBehind set t.rest).map Place.rest ++ seen := by
      intro r
      rw [map_rest_ways_many]
      cases lazy <;> simp
    have hrest := ih hon (by rwa [Reached.size_foldl_add]) (hclosed.placesBehind_append t.rest)
      hreached
    rw [List.flatMap_cons, firsts_append, firsts_ways_many, firsts_congr hkeys, spreadFrom, hnear,
      hrest]

/-- Going on by one or more characters keeps the first way to each place behind. -/
theorem spread_eq_firsts {set : CharSet} {lazy : Bool} {whole : Nat} {ts : List Thread}
    (hon : OnText text ts) :
    spread set lazy ts = firsts Thread.rest [] (ts.flatMap ((Step.many set lazy).ways whole)) := by
  refine spreadFrom_eq_firsts hon ?_ ?_ (Reached.represents_none _)
  · intro t ht
    exact Reached.lt_size_none (List.mem_map_of_mem ht)
  · intro c rest _ hmem
    simp at hmem

end Rejoinder.Regex

import FeatureRun.Proofs.Feature.Draft

/-!
# Example tables by position

Where the lines of each kind stand in a text decides which table rows are examples, and of which
outline. Here this is said on positions alone, and the one-pass reader is shown to keep track of it:
its block says whether a table is open below the nearest heading.

* `Marks`, `Marks.IsExample`: the positions of the kinds of lines, and the rule for example rows.
* `Block.Fits`, `fits_step`: what a block says about the lines above, kept by every line.
* `takesRow_iff`: a row is taken exactly if it is an example of the outline that is open.
-/
set_option autoImplicit false

namespace FeatureRun.Feature

/-- The nearest position above `j` with a property is `i`. -/
def NearestAbove (p : Nat → Prop) (i j : Nat) : Prop :=
  i < j ∧ p i ∧ ∀ k, i < k → k < j → ¬p k

/-- The first position below `i` with a property is `j`. -/
def FirstBelow (p : Nat → Prop) (i j : Nat) : Prop :=
  i < j ∧ p j ∧ ∀ k, i < k → k < j → ¬p k

/-- Which positions of a text, counted from 0, hold a line of a kind. -/
structure Marks where
  /-- A rule, a scenario or an outline opens here. -/
  header : Nat → Prop
  outline : Nat → Prop
  examples : Nat → Prop
  table : Nat → Prop

/-- The line at `r` is an example row of the outline at `s`: it stands in the unbroken table below
the nearest `Examples:` heading, behind the first row of that table, and no header lies between. -/
def Marks.IsExample (m : Marks) (s r : Nat) : Prop :=
  m.table r ∧ ∃ e h, NearestAbove m.examples e r ∧ (∀ k, e < k → k < r → ¬m.header k) ∧
    FirstBelow m.table e h ∧ h < r ∧ (∀ k, h ≤ k → k ≤ r → m.table k) ∧
    NearestAbove m.header s e ∧ m.outline s

/-- A line of a kind stands at a position. -/
def At (lines : List Line) (p : Line → Bool) (k : Nat) : Prop :=
  ∃ l, lines[k]? = some l ∧ p l = true

def marksOf (lines : List Line) : Marks :=
  ⟨At lines Line.isHeader, At lines Line.isOutline, At lines Line.isExamples, At lines Line.isRow⟩

section Positions

variable {lines : List Line} {p q : Line → Bool} {l : Line} {i j k n : Nat}

theorem at_iff (h : lines[k]? = some l) : At lines p k ↔ p l = true :=
  ⟨fun ⟨_, hl, hp⟩ => Option.some.inj (h.symm.trans hl) ▸ hp, fun hp => ⟨l, h, hp⟩⟩

theorem At.not (hk : At lines p k) (hpq : ∀ l, p l = true → q l = false) : ¬At lines q k := by
  obtain ⟨l, hl, hp⟩ := hk
  rw [at_iff hl, hpq l hp]
  exact Bool.false_ne_true

theorem NearestAbove.unique {a : Nat → Prop} (hi : NearestAbove a i n) (hj : NearestAbove a j n) :
    i = j := by
  rcases Nat.lt_trichotomy i j with h | h | h
  · exact absurd hj.2.1 (hi.2.2 j h hj.1)
  · exact h
  · exact absurd hi.2.1 (hj.2.2 i h hi.1)

theorem NearestAbove.succ {a : Nat → Prop} (h : NearestAbove a i n) (hn : ¬a n) :
    NearestAbove a i (n + 1) := by
  refine ⟨Nat.lt_succ_of_lt h.1, h.2.1, fun k hik hkn => ?_⟩
  rcases Nat.lt_succ_iff_lt_or_eq.1 hkn with hk | rfl
  · exact h.2.2 k hik hk
  · exact hn

theorem NearestAbove.self {a : Nat → Prop} (hn : a n) : NearestAbove a n (n + 1) :=
  ⟨Nat.lt_succ_self n, hn, fun k _ _ => by omega⟩

theorem NearestAbove.of_succ {a : Nat → Prop} (h : NearestAbove a i (n + 1)) (hn : ¬a n) :
    NearestAbove a i n := by
  have hne : i ≠ n := fun e => hn (e ▸ h.2.1)
  have := h.1
  exact ⟨by omega, h.2.1, fun k hik hkn => h.2.2 k hik (by omega)⟩

end Positions

/-! ## The owner of a row -/

theorem lastIdx?_eq_none_iff {α : Type} {p : α → Bool} {xs : List α} :
    lastIdx? p xs = none ↔ ∀ a ∈ xs, p a = false := by
  induction xs with
  | nil => simp [lastIdx?]
  | cons x xs ih =>
    rw [List.forall_mem_cons, ← ih, lastIdx?]
    cases lastIdx? p xs <;> simp

theorem lastIdx?_eq_some_iff {α : Type} {p : α → Bool} {xs : List α} {i : Nat} :
    lastIdx? p xs = some i ↔
      (∃ a, xs[i]? = some a ∧ p a = true) ∧ ∀ j, i < j → ∀ a, xs[j]? = some a → p a = false := by
  induction xs generalizing i with
  | nil => simp [lastIdx?]
  | cons x xs ih =>
    cases i with
    | zero =>
      have hnone : lastIdx? p (x :: xs) = some 0 ↔ lastIdx? p xs = none ∧ p x = true := by
        rw [lastIdx?]
        cases lastIdx? p xs <;> simp
      have htail : (∀ j, 0 < j → ∀ a, (x :: xs)[j]? = some a → p a = false) ↔
          ∀ a ∈ xs, p a = false := by
        constructor
        · intro h a ha
          obtain ⟨j, hj⟩ := List.mem_iff_getElem?.1 ha
          exact h (j + 1) (Nat.succ_pos j) a (by simpa using hj)
        · intro h j hj a ha
          obtain ⟨k, rfl⟩ := Nat.exists_eq_succ_of_ne_zero (Nat.pos_iff_ne_zero.1 hj)
          exact h a (List.mem_of_getElem? (by simpa using ha))
      rw [hnone, htail, lastIdx?_eq_none_iff, and_comm]
      simp
    | succ i =>
      have hsucc : lastIdx? p (x :: xs) = some (i + 1) ↔ lastIdx? p xs = some i := by
        rw [lastIdx?]
        cases lastIdx? p xs <;> simp
      rw [hsucc, ih]
      refine and_congr (by simp) ⟨fun h j hj a ha => ?_, fun h j hj a ha => ?_⟩
      · obtain ⟨k, rfl⟩ := Nat.exists_eq_succ_of_ne_zero (Nat.ne_zero_of_lt hj)
        exact h k (by omega) a (by simpa using ha)
      · exact h (j + 1) (by omega) a (by simpa using ha)

theorem lastIdx?_take {lines : List Line} {p : Line → Bool} {i n : Nat} :
    lastIdx? p (lines.take n) = some i ↔ NearestAbove (At lines p) i n := by
  rw [lastIdx?_eq_some_iff]
  constructor
  · rintro ⟨⟨a, ha, hp⟩, hlast⟩
    rw [List.getElem?_take] at ha
    split at ha
    · rename_i hin
      refine ⟨hin, ⟨a, ha, hp⟩, ?_⟩
      rintro k hik hkn ⟨b, hb, hpb⟩
      have := hlast k hik b (by rw [List.getElem?_take, if_pos hkn, hb])
      simp_all
    · nomatch ha
  · rintro ⟨hin, ⟨a, ha, hp⟩, hlast⟩
    refine ⟨⟨a, by rw [List.getElem?_take, if_pos hin, ha], hp⟩, fun j hij b hb => ?_⟩
    rw [List.getElem?_take] at hb
    split at hb
    · rename_i hjn
      exact Bool.eq_false_iff.2 fun hpb => hlast j hij hjn ⟨b, hb, hpb⟩
    · nomatch hb

theorem findIdx?_drop {lines : List Line} {p : Line → Bool} {e i : Nat} :
    (lines.drop (e + 1)).findIdx? p = some i ↔ FirstBelow (At lines p) e (e + 1 + i) := by
  rw [List.findIdx?_eq_some_iff_getElem]
  constructor
  · rintro ⟨hi, hp, hfirst⟩
    rw [List.length_drop] at hi
    rw [List.getElem_drop] at hp
    refine ⟨by omega, ⟨_, List.getElem?_eq_getElem (by omega), hp⟩, ?_⟩
    rintro k hek hki ⟨l, hl, hpl⟩
    have hk := hfirst (k - (e + 1)) (by omega)
    have hidx : e + 1 + (k - (e + 1)) = k := by omega
    simp only [List.getElem_drop, hidx] at hk
    rw [List.getElem?_eq_getElem (by omega)] at hl
    exact hk (Option.some.inj hl ▸ hpl)
  · rintro ⟨-, ⟨l, hl, hpl⟩, hfirst⟩
    obtain ⟨hlt, rfl⟩ := List.getElem?_eq_some_iff.1 hl
    refine ⟨by rw [List.length_drop]; omega, by rwa [List.getElem_drop], fun j hji hpj => ?_⟩
    rw [List.getElem_drop] at hpj
    exact hfirst (e + 1 + j) (by omega) (by omega) ⟨_, List.getElem?_eq_getElem (by omega), hpj⟩

theorem isExamples_of_isRow (l : Line) (h : l.isRow = true) : l.isExamples = false := by
  cases l <;> simp_all [Line.isRow, Line.isExamples]

theorem isOutline_of_isExamples (l : Line) (h : l.isExamples = true) : l.isOutline = false := by
  cases l <;> simp_all [Line.isExamples, Line.isOutline]

/-- A row has an owner if it lies behind the first row below the nearest heading; the owner is the
nearest outline above that heading. -/
theorem owner?_eq_some_iff {lines : List Line} {r o : Nat} (hr : At lines Line.isRow r) :
    owner? lines r = some o ↔ ∃ e h s, o = s + 1 ∧ NearestAbove (At lines Line.isExamples) e r ∧
      FirstBelow (At lines Line.isRow) e h ∧ h < r ∧ NearestAbove (At lines Line.isOutline) s e := by
  have hrow : ¬At lines Line.isExamples r := hr.not isExamples_of_isRow
  unfold owner?
  constructor
  · intro ho
    split at ho
    · nomatch ho
    · rename_i e he
      rw [lastIdx?_take] at he
      split at ho
      · nomatch ho
      · rename_i i hi
        rw [findIdx?_drop] at hi
        split at ho
        · nomatch ho
        · rename_i hlt
          obtain ⟨s, hs, rfl⟩ := Option.map_eq_some_iff.1 ho
          rw [lastIdx?_take] at hs
          exact ⟨e, _, s, rfl, he.of_succ hrow, hi, by omega,
            hs.of_succ (he.2.1.not isOutline_of_isExamples)⟩
  · rintro ⟨e, h, s, rfl, he, hh, hhr, hs⟩
    have hlast := lastIdx?_take.2 (he.succ hrow)
    have hfirst : (lines.drop (e + 1)).findIdx? Line.isRow = some (h - (e + 1)) := by
      rw [findIdx?_drop, Nat.add_sub_cancel' hh.1]
      exact hh
    have houtline := lastIdx?_take.2 (hs.succ (he.2.1.not isOutline_of_isExamples))
    have hbehind : ¬r ≤ e + 1 + (h - (e + 1)) := by have := hh.1; omega
    simp only [hlast, hfirst, if_neg hbehind, houtline, Option.map_some]

/-! ## What the block of a draft knows -/

/-- Below the heading at `e` a table may still go on at `n`: no header and no other heading stands
between, and from the first row on there are only rows. -/
def TableOpen (m : Marks) (e n : Nat) : Prop :=
  NearestAbove m.examples e n ∧ (∀ k, e < k → k < n → ¬m.header k) ∧
    ∀ h, e < h → m.table h → ∀ k, h ≤ k → k < n → m.table k

/-- The block of a draft is right about the lines above `n`. -/
def Block.Fits (m : Marks) (n : Nat) : Block → Prop
  | .outside => ∀ e, ¬TableOpen m e n
  | .heading => ∃ e, TableOpen m e n ∧ ∀ k, e < k → k < n → ¬m.table k
  | .rows => ∃ e h, TableOpen m e n ∧ e < h ∧ h < n ∧ m.table h

section Block

variable {m : Marks} {e n : Nat} {b : Block}

theorem TableOpen.of_succ (h : TableOpen m e (n + 1)) (hx : ¬m.examples n) :
    TableOpen m e n ∧ ¬m.header n ∧ ∀ k, e < k → k ≤ n → m.table k → m.table n := by
  obtain ⟨hnear, hheader, hrows⟩ := h
  have hen : e < n := (hnear.of_succ hx).1
  refine ⟨⟨hnear.of_succ hx, fun k hk hkn => hheader k hk (by omega),
    fun h heh hh k hhk hkn => hrows h heh hh k hhk (by omega)⟩, hheader n hen (by omega), ?_⟩
  exact fun k hk hkn ht => hrows k hk ht n hkn (by omega)

theorem TableOpen.succ (h : TableOpen m e n) (hx : ¬m.examples n) (hh : ¬m.header n)
    (ht : ∀ k, e < k → k < n → m.table k → m.table n) : TableOpen m e (n + 1) := by
  obtain ⟨hnear, hheader, hrows⟩ := h
  refine ⟨hnear.succ hx, fun k hk hkn => ?_, fun k hek hk j hkj hjn => ?_⟩
  · rcases Nat.lt_succ_iff_lt_or_eq.1 hkn with hk' | rfl
    · exact hheader k hk hk'
    · exact hh
  · rcases Nat.lt_succ_iff_lt_or_eq.1 hjn with hj | rfl
    · exact hrows k hek hk j hkj hj
    · rcases Nat.lt_or_eq_of_le hkj with hlt | rfl
      · exact ht k hek hlt hk
      · exact hk

theorem fits_of_header (hh : m.header n) (hx : ¬m.examples n) : Block.outside.Fits m (n + 1) :=
  fun _ h => (h.of_succ hx).2.1 hh

theorem fits_of_examples (hx : m.examples n) : Block.heading.Fits m (n + 1) :=
  ⟨n, ⟨.self hx, fun k _ _ => by omega, fun h hnh _ k hhk hkn => by omega⟩, fun k _ _ => by omega⟩

/-- A row keeps a table open, and is part of it. -/
theorem fits_of_table (h : b.Fits m n) (ht : m.table n) (hx : ¬m.examples n) (hh : ¬m.header n) :
    (if b = .outside then .outside else .rows : Block).Fits m (n + 1) := by
  have hopen : ∀ e, TableOpen m e n → Block.rows.Fits m (n + 1) := fun e he =>
    ⟨e, n, he.succ hx hh fun _ _ _ _ => ht, he.1.1, Nat.lt_succ_self n, ht⟩
  cases b with
  | outside => exact fun e he => h e (he.of_succ hx).1
  | heading =>
    obtain ⟨e, he, -⟩ := h
    exact hopen e he
  | rows =>
    obtain ⟨e, -, he, -⟩ := h
    exact hopen e he

/-- Any other line ends a table that has a row, and leaves a heading waiting for one. -/
theorem fits_of_other (h : b.Fits m n) (ht : ¬m.table n) (hx : ¬m.examples n) (hh : ¬m.header n) :
    (if b = .rows then .outside else b).Fits m (n + 1) := by
  cases b with
  | outside => exact fun e he => h e (he.of_succ hx).1
  | heading =>
    obtain ⟨e, he, hno⟩ := h
    refine ⟨e, he.succ hx hh fun k hek hkn hk => absurd hk (hno k hek hkn), fun k hek hkn => ?_⟩
    rcases Nat.lt_succ_iff_lt_or_eq.1 hkn with hk | rfl
    · exact hno k hek hk
    · exact ht
  | rows =>
    obtain ⟨e, h, he, heh, hhn, hh⟩ := h
    intro e' he'
    obtain ⟨hopen, -, hrows⟩ := he'.of_succ hx
    obtain rfl := he.1.unique hopen.1
    exact ht (hrows h heh (Nat.le_of_lt hhn) hh)

end Block

/-! ## What the reader keeps track of -/

/-- The open scenario is the one of the nearest header, unless that opened a rule. -/
def HeaderFits (lines : List Line) (n : Nat) : Option Scenario → Prop
  | none => ∀ i, NearestAbove (At lines Line.isHeader) i n → ¬At lines Line.isOutline i
  | some s => ∃ i, NearestAbove (At lines Line.isHeader) i n ∧ s.line = (i : Int) + 1 ∧
      (s.outline = true ↔ At lines Line.isOutline i)

/-- The draft is right about the lines above `n`. -/
structure Draft.Tracks (lines : List Line) (n : Nat) (d : Draft) : Prop where
  block : d.block.Fits (marksOf lines) n
  header : HeaderFits lines n d.scenario

theorem tracks_start (lines : List Line) : Draft.start.Tracks lines 0 :=
  ⟨fun _ h => Nat.not_lt_zero _ h.1.1, fun _ h => absurd h.1 (Nat.not_lt_zero _)⟩

theorem isHeader_of_isOutline (l : Line) (h : l.isOutline = true) : l.isHeader = true := by
  cases l <;> simp_all [Line.isOutline, Line.isHeader]

theorem isHeader_of_isExamples (l : Line) (h : l.isExamples = true) : l.isHeader = false := by
  cases l <;> simp_all [Line.isExamples, Line.isHeader]

theorem At.mono {lines : List Line} {p q : Line → Bool} {k : Nat} (h : At lines p k)
    (hpq : ∀ l, p l = true → q l = true) : At lines q k :=
  let ⟨l, hl, hp⟩ := h
  ⟨l, hl, hpq l hp⟩

section Rows

variable {lines : List Line} {r s : Nat} {d : Draft}

/-- Below the heading of an example row the table is still open. -/
theorem tableOpen_of_isExample (h : (marksOf lines).IsExample s r) :
    ∃ e, TableOpen (marksOf lines) e r := by
  obtain ⟨-, e, g, hnear, hheader, hfirst, hgr, hrows, -⟩ := h
  refine ⟨e, hnear, hheader, fun j hej hj k hjk hkr => hrows k ?_ (Nat.le_of_lt hkr)⟩
  have hgj : g ≤ j := Nat.le_of_not_lt fun hlt => hfirst.2.2 j hej hlt hj
  omega

/-- The nearest header above an example row opens its outline. -/
theorem nearestHeader_of_isExample (h : (marksOf lines).IsExample s r) :
    NearestAbove (At lines Line.isHeader) s r := by
  obtain ⟨-, e, g, hnear, hheader, -, -, -, hs, -⟩ := h
  refine ⟨Nat.lt_trans hs.1 hnear.1, hs.2.1, fun k hsk hkr => ?_⟩
  rcases Nat.lt_trichotomy k e with hk | rfl | hk
  · exact hs.2.2 k hsk hk
  · exact At.not hnear.2.1 isHeader_of_isExamples
  · exact hheader k hk hkr

theorem owner?_of_isExample (h : (marksOf lines).IsExample s r) : owner? lines r = some (s + 1) := by
  obtain ⟨hr, e, g, hnear, -, hfirst, hgr, -, hs, hout⟩ := h
  refine (owner?_eq_some_iff hr).2 ⟨e, g, s, rfl, hnear, hfirst, hgr, hs.1, hout, ?_⟩
  exact fun k hsk hke hk => hs.2.2 k hsk hke (hk.mono isHeader_of_isOutline)

/-- The table is open where a block is. -/
theorem Draft.Tracks.exists_tableOpen (h : d.Tracks lines r) (hout : d.block ≠ .outside) :
    ∃ e, TableOpen (marksOf lines) e r := by
  have hblock := h.1
  cases hb : d.block with
  | outside => exact absurd hb hout
  | heading =>
    rw [hb] at hblock
    exact hblock.imp fun _ h => h.1
  | rows =>
    rw [hb] at hblock
    exact hblock.imp fun _ ⟨_, h⟩ => h.1

theorem Draft.Tracks.isExample_of_takesRow (h : d.Tracks lines r) (hr : At lines Line.isRow r)
    (htakes : d.TakesRow lines r) : ∃ s, (marksOf lines).IsExample s r := by
  obtain ⟨hout, sc, hsc, -, howner⟩ := htakes
  obtain ⟨e, hnear, hclear, hrows⟩ := h.exists_tableOpen hout
  obtain ⟨o, ho, hline⟩ := Option.map_eq_some_iff.1 howner
  obtain ⟨e', g, s, rfl, hnear', hfirst, hgr, hs⟩ := (owner?_eq_some_iff hr).1 ho
  obtain rfl := hnear.unique hnear'
  have hheader := h.2
  rw [hsc] at hheader
  obtain ⟨i, hi, hil, -⟩ := hheader
  have his : i = s := by simp only [Int.ofNat_eq_natCast] at hline; omega
  subst his
  refine ⟨i, hr, e, g, hnear, hclear, hfirst, hgr, ?_, ?_, hs.2.1⟩
  · intro k hgk hkr
    rcases Nat.lt_or_eq_of_le hkr with hlt | rfl
    · exact hrows g hfirst.1 hfirst.2.1 k hgk hlt
    · exact hr
  · exact ⟨hs.1, hi.2.1, fun k hik hke => hi.2.2 k hik (Nat.lt_trans hke hnear.1)⟩

theorem Draft.Tracks.takesRow_of_isExample {s : Nat} (h : d.Tracks lines r)
    (hex : (marksOf lines).IsExample s r) : d.TakesRow lines r := by
  obtain ⟨hblock, hheader⟩ := h
  obtain ⟨e, hopen⟩ := tableOpen_of_isExample hex
  have hnear := nearestHeader_of_isExample hex
  have hout : At lines Line.isOutline s := hex.2.choose_spec.choose_spec.2.2.2.2.2.2
  refine ⟨fun hb => ?_, ?_⟩
  · rw [hb] at hblock
    exact hblock e hopen
  · cases hsc : d.scenario with
    | none =>
      rw [hsc] at hheader
      exact absurd hout (hheader s hnear)
    | some sc =>
      rw [hsc] at hheader
      obtain ⟨i, hi, hline, hoi⟩ := hheader
      obtain rfl := hi.unique hnear
      refine ⟨sc, rfl, hoi.2 hout, ?_⟩
      rw [owner?_of_isExample hex, hline]
      rfl

/-- A row is taken exactly if it is an example row. -/
theorem Draft.Tracks.takesRow_iff (h : d.Tracks lines r) (hr : At lines Line.isRow r) :
    d.TakesRow lines r ↔ ∃ s, (marksOf lines).IsExample s r := by
  constructor
  · exact h.isExample_of_takesRow hr
  · rintro ⟨s, hex⟩
    exact h.takesRow_of_isExample hex

end Rows

/-! ## One line more -/

section Step

variable {lines : List Line} {n : Nat} {d : Draft} {l : Line}

theorem HeaderFits.succ {s : Option Scenario} (h : HeaderFits lines n s)
    (hn : ¬At lines Line.isHeader n) : HeaderFits lines (n + 1) s := by
  cases s with
  | none => exact fun i hi => h i (hi.of_succ hn)
  | some s =>
    obtain ⟨i, hi, hline, hout⟩ := h
    exact ⟨i, hi.succ hn, hline, hout⟩

/-- The scenario that a header opens. -/
theorem headerFits_some (hl : lines[n]? = some l) (hh : l.isHeader = true) (name : String) :
    HeaderFits lines (n + 1) (some ⟨name, (n : Int) + 1, l.isOutline, []⟩) :=
  ⟨n, .self ((at_iff hl).2 hh), rfl, (at_iff (p := Line.isOutline) hl).symm⟩

/-- A rule closes the scenario above it. -/
theorem headerFits_none (hl : lines[n]? = some l) (hh : l.isHeader = true)
    (ho : l.isOutline = false) : HeaderFits lines (n + 1) none := by
  intro i hi
  obtain rfl := hi.unique (.self ((at_iff hl).2 hh))
  rw [at_iff hl, ho]
  exact Bool.false_ne_true

theorem HeaderFits.addRow (h : HeaderFits lines n d.scenario) (text : String) :
    HeaderFits lines n (d.addRow lines n text).scenario := by
  unfold Draft.addRow
  split
  · exact h
  · split
    · rename_i s hs
      rw [hs] at h
      split
      · exact h
      · rwa [hs]
    · rename_i hs
      rwa [hs] at h ⊢

theorem block_addRow (text : String) :
    (d.addRow lines n text).block = if d.block = .outside then .outside else .rows := by
  unfold Draft.addRow
  split
  · rename_i hb
    rw [hb]
  · split
    · split <;> rfl
    · rfl

theorem closeScenario_scenario (d : Draft) : d.closeScenario.scenario = none := by
  unfold Draft.closeScenario
  split
  · assumption
  · split <;> rfl

theorem closeRule_scenario (d : Draft) : d.closeRule.scenario = none := by
  unfold Draft.closeRule
  dsimp only
  split <;> exact closeScenario_scenario d

/-- A line that neither opens anything nor is a row settles the block at most. -/
theorem tracks_settleBlock (h : d.Tracks lines n) (hl : lines[n]? = some l)
    (hrow : l.isRow = false) (hx : l.isExamples = false) (hh : l.isHeader = false) :
    (d.settleBlock l).Tracks lines (n + 1) := by
  have hat : ∀ p, At lines p n ↔ p l = true := fun p => at_iff hl
  have hblock : (d.settleBlock l).block = if d.block = .rows then .outside else d.block := by
    simp only [Draft.settleBlock, hrow, Bool.not_false, Bool.and_true, decide_eq_true_eq]
    split <;> rfl
  have hscenario : (d.settleBlock l).scenario = d.scenario := by
    unfold Draft.settleBlock
    split <;> rfl
  refine ⟨?_, ?_⟩
  · rw [hblock]
    exact fits_of_other h.block (by simp [marksOf, hat, hrow]) (by simp [marksOf, hat, hx])
      (by simp [marksOf, hat, hh])
  · rw [hscenario]
    exact h.header.succ (by simp [hat, hh])

/-- Every line keeps the draft right about the lines above. -/
theorem tracks_step (h : d.Tracks lines n) (hl : lines[n]? = some l) :
    (d.step lines n l).Tracks lines (n + 1) := by
  have hat : ∀ p, At lines p n ↔ p l = true := fun p => at_iff hl
  cases l with
  | rule name =>
    refine ⟨fits_of_header ((hat _).2 rfl) (by simp [marksOf, hat, Line.isExamples]), ?_⟩
    simp only [Draft.step]
    rw [closeRule_scenario]
    exact headerFits_none hl rfl rfl
  | outline name =>
    exact ⟨fits_of_header ((hat _).2 rfl) (by simp [marksOf, hat, Line.isExamples]),
      headerFits_some hl rfl name⟩
  | scenario name =>
    exact ⟨fits_of_header ((hat _).2 rfl) (by simp [marksOf, hat, Line.isExamples]),
      headerFits_some hl rfl name⟩
  | examples =>
    refine ⟨fits_of_examples ((hat _).2 rfl), ?_⟩
    simp only [Draft.step]
    split <;> exact h.header.succ (by simp [hat, Line.isHeader])
  | row text =>
    have hstep : d.step lines n (.row text) = d.addRow lines n text := by
      simp [Draft.step, Line.isRow]
    rw [hstep]
    refine ⟨?_, (h.header.addRow text).succ (by simp [hat, Line.isHeader])⟩
    rw [block_addRow]
    exact fits_of_table h.block ((hat _).2 rfl) (by simp [marksOf, hat, Line.isExamples])
      (by simp [marksOf, hat, Line.isHeader])
  | feature name =>
    have hsettled := tracks_settleBlock h hl rfl rfl rfl
    exact ⟨hsettled.block, hsettled.header⟩
  | other => exact tracks_settleBlock h hl rfl rfl rfl

end Step

end FeatureRun.Feature

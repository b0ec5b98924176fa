import FeatureRun.Proofs.Run.Picked
import FeatureRun.Proofs.Run.Steps

/-!
# The effect of applying a report

A report is applied to the roots of a selection one after another. Since no root lies above another
one, and what is said about a node depends on its file and the report only, the order of the roots
does not matter: every node of their subtrees ends up with what is stated about it, every node above
them with its verdict if that is definite, and nothing else is touched.
-/
set_option autoImplicit false

namespace FeatureRun.Run

open Report (Entry)
open Feature Catalog

/-- What is recorded is the result of a whole feature or a verdict. -/
theorem mem_writes_cases {root : Path} {report : List Entry} {x : NodeRef} {f : Feature}
    {below above : List String} {r : Result}
    (h : r ∈ (appliedBy root report x f below above).writes) :
    r = featureResult report x.file f ∨ ∃ n, (verdicts report x.file f).get? n = some r := by
  rcases List.mem_append.1 h with h | h
  · obtain ⟨n, hn⟩ := OrderedMap.mem_values_iff.1 h
    exact (pickedBy_cases hn).imp_right fun hn => ⟨n, hn⟩
  · obtain ⟨h, -⟩ := List.mem_filter.1 h
    obtain ⟨n, -, hn⟩ := List.mem_filterMap.1 h
    exact .inr ⟨n, hn⟩

section Loop

variable {report : List Entry} {run : Option Int} {ids : List String} {w : Workspace}

/-- Keeping these results writes their rows. -/
def Keepable (keep : List Result → Action Unit) (run : Option Int) (rs : List Result) : Prop :=
  ∀ w, keep rs w = (.ok (), { w with store := recorded w run rs })

theorem keepable_record {rs : List Result} (hrun : run.all Store.fits = true)
    (hread : ∀ r ∈ rs, ∃ ref, NodeRef.read r.id = .ok ref) : Keepable (record run) run rs :=
  fun _ => record_apply hrun hread

theorem keepable_recordEncoded {rs : List Result} (hrun : run.all Store.fits = true)
    (hread : ∀ r ∈ rs, ∃ ref, NodeRef.read r.id = .ok ref) (htexts : Encodable rs) :
    Keepable (recordEncoded run) run rs :=
  fun _ => (recordEncoded_of_encodable htexts).trans (record_apply hrun hread)

/-- Applying a report to several nodes gathers what it says about each, and adds the counts up. -/
theorem applyAll_apply {keep : List Result → Action Unit} {applied : List Applied}
    (h : ids.map (applyTo w.catalog w.root report) = applied.map fun a => .ok (some a))
    (hkeep : ∀ a ∈ applied, Keepable keep run a.writes) (results : Results) (counts : Summary) :
    ∃ journal, applyAllWith keep report results counts ids w =
      (.ok (results.insertAll (applied.flatMap fun a => a.picked.entries),
          applied.foldl (fun sum a => sum + a.counts) counts),
        { w with
          store := recorded w run (applied.flatMap Applied.writes), journal := journal }) := by
  induction ids generalizing applied w results counts with
  | nil =>
    obtain rfl := List.map_eq_nil_iff.1 h.symm
    exact ⟨w.journal, rfl⟩
  | cons id ids ih =>
    cases applied with
    | nil => nomatch h
    | cons a applied =>
      obtain ⟨ha, h⟩ := List.cons.inj h
      obtain ⟨journal, hrest⟩ :=
        ih (w := { w with store := recorded w run a.writes, journal := w.journal.add a.notes }) h
          (fun b hb => hkeep b (List.mem_cons_of_mem a hb)) (results.insertAll a.picked.entries)
          (counts + a.counts)
      refine ⟨journal, ?_⟩
      rw [applyAllWith, Action.bind_ok Action.get_apply, ha,
        Action.bind_ok (Action.ofExcept_ok _ _)]
      simp only
      rw [Action.bind_ok (Action.note_apply _),
        Action.bind_ok (hkeep a List.mem_cons_self { w with journal := w.journal.add a.notes })]
      refine hrest.trans ?_
      rw [recorded_append, List.flatMap_cons, List.flatMap_cons, OrderedMap.insertAll_append,
        List.foldl_cons]

/-- Whatever the counts come to. -/
theorem applyAll_eq {applied : List Applied} (hrun : run.all Store.fits = true)
    (h : ids.map (applyTo w.catalog w.root report) = applied.map fun a => .ok (some a))
    (hread : ∀ a ∈ applied, ∀ r ∈ a.writes, ∃ ref, NodeRef.read r.id = .ok ref)
    (results : Results) (counts : Summary) :
    ∃ counts' journal, applyAllWith (record run) report results counts ids w =
      (.ok (results.insertAll (applied.flatMap fun a => a.picked.entries), counts'),
        { w with store := recorded w run (applied.flatMap Applied.writes), journal := journal }) :=
  ⟨_, applyAll_apply h (fun a ha => keepable_record hrun (hread a ha)) results counts⟩

/-- If not all that a report says can be stored, applying it breaks off where that is kept. -/
theorem applyAll_unencodable {applied : List Applied} (hrun : run.all Store.fits = true)
    (h : ids.map (applyTo w.catalog w.root report) = applied.map fun a => .ok (some a))
    (hread : ∀ a ∈ applied, ∀ r ∈ a.writes, ∃ ref, NodeRef.read r.id = .ok ref)
    (htexts : ¬Encodable (applied.flatMap Applied.writes)) (results : Results) (counts : Summary) :
    ∃ f w', applyAllWith (recordEncoded run) report results counts ids w =
      (.error (.unencodable f), w') := by
  induction ids generalizing applied w results counts with
  | nil =>
    obtain rfl := List.map_eq_nil_iff.1 h.symm
    exact absurd rfl htexts
  | cons id ids ih =>
    cases applied with
    | nil => nomatch h
    | cons a applied =>
      obtain ⟨ha, h⟩ := List.cons.inj h
      obtain ⟨hreada, hread⟩ := List.forall_mem_cons.1 hread
      rw [List.flatMap_cons, encodable_append] at htexts
      rw [applyAllWith, Action.bind_ok Action.get_apply, ha,
        Action.bind_ok (Action.ofExcept_ok _ _)]
      simp only
      rw [Action.bind_ok (Action.note_apply _)]
      cases hfault : (a.writes.flatMap Store.textsOf).findSome? Text.encodeFault? with
      | some f =>
        obtain ⟨w', hrecord⟩ := recordEncoded_unencodable
          (w := { w with journal := w.journal.add a.notes }) hrun hreada hfault
        exact ⟨f, w', Action.bind_error hrecord⟩
      | none =>
        have hkeep := keepable_recordEncoded hrun hreada hfault
          { w with journal := w.journal.add a.notes }
        rw [Action.bind_ok hkeep]
        exact ih (w := { w with store := recorded w run a.writes, journal := w.journal.add a.notes })
          h hread (fun hrest => htexts ⟨hfault, hrest⟩) _ _

end Loop

section Writes

variable {c : Catalog} {report : List Entry} {ids : List String} {n : String} {r r' : Result}

/-- A result of a node in the subtree of a root. -/
def Picks (c : Catalog) (report : List Entry) (ids : List String) (n : String) (r : Result) : Prop :=
  ∃ file f x, c.IsRoot ids file f x ∧ ∃ y ∈ f.below x, y.id = n ∧ stated report f y = some r

/-- A definite result of a node above a root. -/
def Rolls (c : Catalog) (report : List Entry) (ids : List String) (n : String) (r : Result) : Prop :=
  ∃ file f x, c.IsRoot ids file f x ∧ ∃ y ∈ f.above x, y.id = n ∧
    (verdicts report file f).get? n = some r ∧ isSettled r = true

theorem Picks.unique (h : Picks c report ids n r) (h' : Picks c report ids n r') : r = r' := by
  obtain ⟨file, f, x, hroot, y, hy, rfl, hr⟩ := h
  obtain ⟨file', f', x', hroot', y', hy', he, hr'⟩ := h'
  obtain ⟨rfl, rfl, rfl⟩ := hroot.holds.unique hroot'.holds
    (hroot.refers.below hroot.holds.ordered hy) (hroot'.refers.below hroot'.holds.ordered hy') he.symm
  exact Option.some.inj (hr.symm.trans hr')

theorem Rolls.unique (h : Rolls c report ids n r) (h' : Rolls c report ids n r') : r = r' := by
  obtain ⟨file, f, x, hroot, y, hy, rfl, hr, -⟩ := h
  obtain ⟨file', f', x', hroot', y', hy', he, hr', -⟩ := h'
  obtain ⟨rfl, rfl, rfl⟩ := hroot.holds.unique hroot'.holds
    (hroot.refers.above hroot.holds.ordered hy) (hroot'.refers.above hroot'.holds.ordered hy') he.symm
  exact Option.some.inj (hr.symm.trans hr')

/-- No node above a root lies in the subtree of another root. -/
theorem Picks.not_above {file : String} {f : Feature} {x y : NodeRef}
    (hroot : c.IsRoot ids file f x) (hy : y ∈ f.above x) : ¬Picks c report ids y.id r := by
  rintro ⟨file', f', x', hroot', y', hy', he, -⟩
  have hyref := hroot.refers.above hroot.holds.ordered hy
  obtain ⟨rfl, rfl, rfl⟩ := hroot.holds.unique hroot'.holds hyref
    (hroot'.refers.below hroot'.holds.ordered hy') he.symm
  rcases mem_above_of_mem_below hroot.holds.ordered hroot'.refers hyref hy' with rfl | hx'
  · exact hroot.alone _ hy hroot'.mem
  · exact hroot.alone _ (above_trans hy hx') hroot'.mem

theorem Picks.not_rolls (h : Picks c report ids n r) : ¬Rolls c report ids n r' := by
  rintro ⟨file, f, x, hroot, y, hy, rfl, -⟩
  exact Picks.not_above hroot hy h

theorem Picks.id_eq (h : Picks c report ids n r) : r.id = n := by
  obtain ⟨file, f, x, hroot, y, hy, rfl, hr⟩ := h
  obtain ⟨r₀, hr₀, hid⟩ := exists_stated report
    (hroot.refers.below hroot.holds.ordered hy)
  rw [hr] at hr₀
  exact Option.some.inj hr₀ ▸ hid

theorem Rolls.id_eq (h : Rolls c report ids n r) : r.id = n := by
  obtain ⟨file, f, x, -, y, -, rfl, hr, -⟩ := h
  exact RollUp.id_of_get?_results hr

/-- A result that applying a report to the roots of a selection writes for a node. -/
def Says (c : Catalog) (report : List Entry) (ids : List String) (n : String) (r : Result) : Prop :=
  Picks c report ids n r ∨ Rolls c report ids n r

theorem Says.unique {r' : Result} (h : Says c report ids n r) (h' : Says c report ids n r') :
    r = r' := by
  rcases h with h | h <;> rcases h' with h' | h'
  · exact h.unique h'
  · exact absurd h' h.not_rolls
  · exact absurd h h'.not_rolls
  · exact h.unique h'

/-- What is written for a node is written under its id, which can be read. -/
theorem Says.exists_read (h : Says c report ids n r) :
    r.id = n ∧ ∃ ref, NodeRef.read n = .ok ref := by
  refine ⟨h.elim Picks.id_eq Rolls.id_eq, ?_⟩
  rcases h with ⟨file, f, x, hroot, y, hy, rfl, -⟩ | ⟨file, f, x, hroot, y, hy, rfl, -⟩
  · exact ⟨y, hroot.holds.read_id (hroot.refers.below hroot.holds.ordered hy)⟩
  · exact ⟨y, hroot.holds.read_id (hroot.refers.above hroot.holds.ordered hy)⟩

/-- A list each of whose elements has an image of some kind has a list of such images. -/
theorem exists_map_eq {α β γ : Type} {g : α → β} {k : γ → β} {P : γ → Prop} {xs : List α}
    (h : ∀ a ∈ xs, ∃ b, g a = k b ∧ P b) : ∃ ys : List γ, xs.map g = ys.map k ∧ ∀ b ∈ ys, P b := by
  induction xs with
  | nil => exact ⟨[], rfl, List.forall_mem_nil _⟩
  | cons a xs ih =>
    obtain ⟨⟨b, hb, hP⟩, hrest⟩ := List.forall_mem_cons.1 h
    obtain ⟨ys, hys, hall⟩ := ih hrest
    exact ⟨b :: ys, by rw [List.map_cons, List.map_cons, hb, hys],
      List.forall_mem_cons.2 ⟨hP, hall⟩⟩

/-- This is what applying the report to one of the roots says. -/
def FromRoot (c : Catalog) (root : Path) (report : List Entry) (ids : List String) (a : Applied) :
    Prop :=
  ∃ file f x, c.IsRoot ids file f x ∧ applyTo c root report x.id = .ok (some a)

theorem exists_picked_iff (root : Path) :
    (∃ a, FromRoot c root report ids a ∧ a.picked.get? n = some r) ↔ Picks c report ids n r := by
  constructor
  · rintro ⟨a, ⟨file, f, x, hroot, happly⟩, hget⟩
    obtain ⟨a', happly', hpicked, -⟩ := applyTo_id hroot.holds hroot.refers
    cases happly.symm.trans happly'
    rw [hpicked, get?_pickedBy hroot.holds hroot.refers] at hget
    exact ⟨file, f, x, hroot, hget⟩
  · rintro ⟨file, f, x, hroot, hget⟩
    obtain ⟨a, happly, hpicked, -⟩ := applyTo_id hroot.holds hroot.refers
    refine ⟨a, ⟨file, f, x, hroot, happly⟩, ?_⟩
    rw [hpicked, get?_pickedBy hroot.holds hroot.refers]
    exact hget

theorem exists_rolled_iff (root : Path) :
    (∃ a, FromRoot c root report ids a ∧ r ∈ a.rolled) ↔ Rolls c report ids r.id r := by
  constructor
  · rintro ⟨a, ⟨file, f, x, hroot, happly⟩, hr⟩
    obtain ⟨a', happly', -, hrolled⟩ := applyTo_id hroot.holds hroot.refers
    cases happly.symm.trans happly'
    rw [hrolled, mem_rolled] at hr
    obtain ⟨y, hy, hget, hset⟩ := hr
    have hid := RollUp.id_of_get?_results hget
    exact ⟨file, f, x, hroot, y, hy, hid.symm, by rw [hid]; exact hget, hset⟩
  · rintro ⟨file, f, x, hroot, y, hy, hid, hget, hset⟩
    obtain ⟨a, happly, -, hrolled⟩ := applyTo_id hroot.holds hroot.refers
    refine ⟨a, ⟨file, f, x, hroot, happly⟩, ?_⟩
    rw [hrolled, mem_rolled]
    exact ⟨y, hy, hid ▸ hget, hset⟩

/-- Applying a report to every root says something. -/
theorem exists_map_applyTo (root : Path) (report : List Entry) {roots : List String}
    (hroots : ∀ id, id ∈ roots ↔ ∃ file f x, c.IsRoot ids file f x ∧ x.id = id) :
    ∃ applied : List Applied,
      roots.map (applyTo c root report) = applied.map (fun a => .ok (some a)) ∧
      ∀ a, a ∈ applied ↔ FromRoot c root report ids a := by
  obtain ⟨applied, happlied, hfrom⟩ : ∃ applied : List Applied,
      roots.map (applyTo c root report) = applied.map (fun a => .ok (some a)) ∧
      ∀ a ∈ applied, FromRoot c root report ids a := by
    refine exists_map_eq fun id hid => ?_
    obtain ⟨file, f, x, hroot, rfl⟩ := (hroots id).1 hid
    obtain ⟨a, ha, -⟩ := applyTo_id hroot.holds hroot.refers
    exact ⟨a, ha, file, f, x, hroot, ha⟩
  refine ⟨applied, happlied, fun a => ⟨hfrom a, ?_⟩⟩
  rintro ⟨file, f, x, hroot, ha⟩
  have himage : (.ok (some a) : Lookup (Option Applied)) ∈ roots.map (applyTo c root report) :=
    List.mem_map.2 ⟨x.id, (hroots _).2 ⟨file, f, x, hroot, rfl⟩, ha⟩
  rw [happlied] at himage
  simpa using himage

/-- What applying a report to the roots of a selection says, all together. -/
theorem exists_applied (root : Path) (report : List Entry) {roots : List String}
    (hroots : ∀ id, id ∈ roots ↔ ∃ file f x, c.IsRoot ids file f x ∧ x.id = id) :
    ∃ applied : List Applied,
      roots.map (applyTo c root report) = applied.map (fun a => .ok (some a)) ∧
      (∀ n r, (n, r) ∈ applied.flatMap (fun a => a.picked.entries) ↔ Picks c report ids n r) ∧
      ∀ r, r ∈ applied.flatMap Applied.writes ↔ Says c report ids r.id r := by
  obtain ⟨applied, happlied, hmem⟩ := exists_map_applyTo root report hroots
  refine ⟨applied, happlied, fun n r => ?_, fun r => ?_⟩
  · simp only [List.mem_flatMap, OrderedMap.mem_entries_iff, hmem]
    exact exists_picked_iff root
  · simp only [List.mem_flatMap, Applied.writes, List.mem_append, OrderedMap.mem_values_iff, hmem,
      Says]
    rw [← exists_picked_iff root, ← exists_rolled_iff root]
    constructor
    · rintro ⟨a, ha, ⟨n, hn⟩ | hr⟩
      · have hid := ((exists_picked_iff root).1 ⟨a, ha, hn⟩).id_eq
        exact .inl ⟨a, ha, hid ▸ hn⟩
      · exact .inr ⟨a, ha, hr⟩
    · rintro (⟨a, ha, hn⟩ | ⟨a, ha, hr⟩)
      · exact ⟨a, ha, .inl ⟨_, hn⟩⟩
      · exact ⟨a, ha, .inr hr⟩

/-- Whatever the report says about these nodes can be stored. -/
def Storable (c : Catalog) (report : List Entry) (ids : List String) : Prop :=
  ∀ r, Says c report ids r.id r → Encodable [r]

theorem encodable_iff_storable {rs : List Result} (hrs : ∀ r, r ∈ rs ↔ Says c report ids r.id r) :
    Encodable rs ↔ Storable c report ids := by
  simp only [Storable, ← hrs]
  rw [encodable_iff]
  simp only [encodable_iff, List.forall_mem_singleton]

/-- What a report says about a part of the roots of a selection. -/
theorem exists_applied_of_select {roots part : List String} {selected : Option (List String)}
    (root : Path) (report : List Entry) (hc : c.Parsed)
    (hids : ∀ id ∈ selected.getD [], c.IsNode id) (hselect : c.select selected = .ok roots)
    (hpart : part.Sublist roots) :
    ∃ applied : List Applied,
      part.map (applyTo c root report) = applied.map (fun a => .ok (some a)) ∧
      (∀ a ∈ applied, ∀ r ∈ a.writes, ∃ ref, NodeRef.read r.id = .ok ref) ∧
      ∀ r, r ∈ applied.flatMap Applied.writes ↔ Says c report part r.id r := by
  have hnodes : ∀ id ∈ (some part).getD [], c.IsNode id := fun id hid =>
    isNode_of_select hc hids hselect id (hpart.subset hid)
  obtain ⟨part', hpart', hroots⟩ := select_eq hc hnodes
  cases (select_of_sublist hselect hpart).symm.trans hpart'
  obtain ⟨applied, happlied, -, hwrites⟩ := exists_applied root report hroots
  refine ⟨applied, happlied, fun a ha r hr => ?_, hwrites⟩
  obtain ⟨-, href⟩ := ((hwrites r).1 (List.mem_flatMap.2 ⟨a, ha, hr⟩)).exists_read
  exact href

/-- A report is applied to known nodes exactly if all that it says about them can be stored. -/
theorem applyReport_cases {roots : List String} {selected : Option (List String)}
    {run : Option Int} {w : Workspace} (report : List Entry) (cancelAfter : Option Nat)
    (hc : w.catalog.Parsed) (hids : ∀ id ∈ selected.getD [], w.catalog.IsNode id)
    (hselect : w.catalog.select selected = .ok roots) (hrun : run.all Store.fits = true) :
    (Storable w.catalog report (roots.take (cancelAfter.getD roots.length)) ∧ ∃ found w',
      applyReportWith (recordEncoded run) report selected cancelAfter w = (.ok found, w')) ∨
    (¬Storable w.catalog report (roots.take (cancelAfter.getD roots.length)) ∧ ∃ f w',
      applyReportWith (recordEncoded run) report selected cancelAfter w =
        (.error (.unencodable f), w')) := by
  obtain ⟨applied, happlied, hread, hwrites⟩ := exists_applied_of_select w.root report hc hids
    hselect (List.take_sublist (cancelAfter.getD roots.length) roots)
  rw [← encodable_iff_storable hwrites]
  by_cases htexts : Encodable (applied.flatMap Applied.writes)
  · have hkeep : ∀ a ∈ applied, Keepable (recordEncoded run) run a.writes := fun a ha =>
      keepable_recordEncoded hrun (hread a ha) (encodable_iff.2 fun r hr =>
        encodable_iff.1 htexts r (List.mem_flatMap.2 ⟨a, ha, hr⟩))
    obtain ⟨journal, hall⟩ := applyAll_apply happlied hkeep .empty .empty
    obtain ⟨journal', happly⟩ := applyReportWith_ok hselect hall
    exact .inl ⟨htexts, _, _, happly⟩
  · obtain ⟨f, w', hall⟩ := applyAll_unencodable hrun happlied hread htexts .empty .empty
    exact .inr ⟨htexts, f, w', applyReportWith_error hselect hall⟩

end Writes

section Written

variable {c : Catalog} {report : List Entry} {ids : List String} {run : Option Int} {w : Workspace}
  {rs : List Result} {n : String} {r : Result}

/-- Recording what is said about the nodes leaves for each what is definite about it, -/
theorem get?_recorded_of_says (hrs : ∀ r, r ∈ rs ↔ Says c report ids r.id r)
    (h : Says c report ids n r) (hstatus : r.status ≠ .unmatched) :
    (recorded w run rs).get? n = some r := by
  obtain ⟨rfl, ref, hread⟩ := h.exists_read
  refine get?_recorded ((hrs r).2 h) hstatus hread fun t ht hte => ?_
  have hsays := (hrs t).1 ht
  rw [hte] at hsays
  exact hsays.unique h

/-- and else the row that was there before. -/
theorem rows_recorded_of_unmatched (hrs : ∀ r, r ∈ rs ↔ Says c report ids r.id r)
    (h : ∀ r, Says c report ids n r → r.status = .unmatched) :
    (recorded w run rs).rows.get? n = w.store.rows.get? n :=
  rows_recorded fun t ht hte => h t (hte ▸ (hrs t).1 ht)

end Written

end FeatureRun.Run

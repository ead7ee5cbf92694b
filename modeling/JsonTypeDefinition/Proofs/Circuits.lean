import JsonTypeDefinition.Schema.Cycle
import Mathlib.Data.List.Cycle
import Mathlib.Logic.Relation
import Mathlib.Tactic.Lemma

/-!
# Circuits of a graph with one way out of each name

`IsCircuit r names` says that `names` go round a cycle of `r` once. A search for cycles lists for
each cycle of its edges exactly one circuit, and circuits of one cycle differ by where they start.
-/

open Relation

namespace JsonTypeDefinition.Proofs

/-- The names of one cycle, each once and in the order of the edges. -/
structure IsCircuit (r : String → String → Prop) (names : List String) : Prop where
  nonempty : names ≠ []
  nodup : names.Nodup
  /-- Each name leads to the next one, the last to the first. -/
  closed : Cycle.Chain r (names : Cycle String)

section Functional

variable {r : String → String → Prop}

lemma circuit_reaches {names : List String} (h : IsCircuit r names) {x y : String}
    (hx : x ∈ names) (hy : y ∈ names) : TransGen r x y := by
  have hc : Cycle.Chain (TransGen r) (names : Cycle String) :=
    h.closed.imp fun _ _ => TransGen.single
  exact Cycle.chain_iff_pairwise.mp hc x (by simpa using hx) y (by simpa using hy)

lemma circuit_of_rotation {names other : List String} (h : IsCircuit r names)
    (hr : names ~r other) : IsCircuit r other := by
  have he : (other : Cycle String) = names := Cycle.coe_eq_coe.mpr hr.symm
  refine ⟨?_, hr.perm.nodup_iff.mp h.nodup, he ▸ h.closed⟩
  rintro rfl
  exact h.nonempty (List.isRotated_nil_iff.mp hr)

/-- Where each name has one way out, a walk from a cycle only meets names of that cycle. -/
lemma returns_to_cycle (hr : Relator.RightUnique r) {x y : String} (hx : TransGen r x x)
    (hy : ReflTransGen r x y) : ReflTransGen r y x := by
  induction hy with
  | refl => exact .refl
  | tail hxy hyz ih =>
    rcases ReflTransGen.cases_head ih with he | ⟨z, hz, hzx⟩
    · subst he
      obtain ⟨z, hz, hzx⟩ := TransGen.head'_iff.mp hx
      exact hr hz hyz ▸ hzx
    · exact hr hz hyz ▸ hzx

lemma mem_of_cycle_meets (hr : Relator.RightUnique r) {S : List String}
    (hS : ∀ x ∈ S, ∀ y, r x y → y ∈ S) {x y : String} (hx : TransGen r x x)
    (hxy : ReflTransGen r x y) (hy : y ∈ S) : x ∈ S := by
  have hyx := returns_to_cycle hr hx hxy
  clear hx hxy
  induction hyx with
  | refl => exact hy
  | tail _ hzx ih => exact hS _ ih _ hzx

lemma circuit_tail_unique (hr : Relator.RightUnique r) {x a : String} {l l' : List String}
    (hl : List.IsChain r (a :: (l ++ [x]))) (hl' : List.IsChain r (a :: (l' ++ [x])))
    (hx : x ∉ l) (hx' : x ∉ l') : l = l' := by
  induction l generalizing a l' with
  | nil =>
    cases l' with
    | nil => rfl
    | cons b l' =>
      have hax := (List.isChain_cons_cons.mp hl).1
      have hab := (List.isChain_cons_cons.mp hl').1
      exact absurd (hr hax hab ▸ List.mem_cons_self) hx'
  | cons b l ih =>
    have hab := (List.isChain_cons_cons.mp hl).1
    cases l' with
    | nil =>
      have hax := (List.isChain_cons_cons.mp hl').1
      exact absurd (hr hax hab ▸ List.mem_cons_self) hx
    | cons c l' =>
      have hac := (List.isChain_cons_cons.mp hl').1
      obtain rfl := hr hab hac
      have ht := ih (List.isChain_cons_cons.mp hl).2 (List.isChain_cons_cons.mp hl').2
        (fun h => hx (List.mem_cons_of_mem _ h)) (fun h => hx' (List.mem_cons_of_mem _ h))
      rw [ht]

lemma rotate_to_front {names : List String} {x : String} (hx : x ∈ names) :
    ∃ l, names ~r (x :: l) := by
  obtain ⟨before, after, rfl⟩ := List.append_of_mem hx
  exact ⟨after ++ before, ⟨before.length, by simp [List.rotate_append_length_eq]⟩⟩

lemma circuit_successor {names : List String} (h : IsCircuit r names) {x : String}
    (hx : x ∈ names) : ∃ y ∈ names, r x y := by
  obtain ⟨l, hl⟩ := rotate_to_front hx
  have hc := (Cycle.chain_coe_cons r x l).mp (circuit_of_rotation h hl).closed
  cases l with
  | nil => exact ⟨x, hx, (List.isChain_cons_cons.mp hc).1⟩
  | cons y l => exact ⟨y, hl.mem_iff.mpr (by simp), (List.isChain_cons_cons.mp hc).1⟩

theorem circuits_rotated (hr : Relator.RightUnique r) {names other : List String}
    (hn : IsCircuit r names) (ho : IsCircuit r other) {x : String}
    (hx : x ∈ names) (hx' : x ∈ other) : names ~r other := by
  obtain ⟨l, hl⟩ := rotate_to_front hx
  obtain ⟨l', hl'⟩ := rotate_to_front hx'
  have hc := circuit_of_rotation hn hl
  have hc' := circuit_of_rotation ho hl'
  have he : l = l' := circuit_tail_unique hr ((Cycle.chain_coe_cons r x l).mp hc.closed)
    ((Cycle.chain_coe_cons r x l').mp hc'.closed) (List.nodup_cons.mp hc.nodup).1
    (List.nodup_cons.mp hc'.nodup).1
  exact hl.trans (he ▸ hl'.symm)

end Functional

def Step (edges : Cycle.Edges) (source target : String) : Prop :=
  edges.lookup source = some target

lemma step_unique (edges : Cycle.Edges) : Relator.RightUnique (Step edges) := by
  intro a b c hb hc
  exact Option.some.inj (hb.symm.trans hc)

lemma step_source_mem {edges : Cycle.Edges} {source target : String}
    (h : Step edges source target) : source ∈ edges.map Prod.fst := by
  obtain ⟨before, after, he, -⟩ := List.lookup_eq_some_iff.mp h
  simp [he]

/-- A walk along the edges up to some name: it has met each name once and nothing explored. -/
structure IsTrail (edges : Cycle.Edges) (explored before : List String) (name : String) :
    Prop where
  chain : List.IsChain (Step edges) (before ++ [name])
  nodup : (before ++ [name]).Nodup
  fresh : ∀ x ∈ before ++ [name], x ∉ explored

/-- What the end of a walk from outside the explored names tells. -/
structure EndsWell (edges : Cycle.Edges) (explored : List String) (trail : Cycle.Trail) :
    Prop where
  fresh : ∀ x ∈ trail.visited, x ∉ explored
  /-- No edge leaves what is explored now. -/
  closed : ∀ x ∈ trail.visited, ∀ y, Step edges x y → y ∈ trail.visited ∨ y ∈ explored
  circuit : ∀ names ∈ trail.cycle, IsCircuit (Step edges) names ∧ ∀ x ∈ names, x ∈ trail.visited
  /-- A visited name on a cycle is on the one that is reported. -/
  covered : ∀ x ∈ trail.visited, TransGen (Step edges) x x → ∃ names ∈ trail.cycle, x ∈ names

section Trail

variable {edges : Cycle.Edges} {explored before : List String} {name : String}

lemma trail_successor (h : IsTrail edges explored before name) {x : String} (hx : x ∈ before) :
    ∃ y ∈ before ++ [name], Step edges x y := by
  obtain ⟨front, back, rfl⟩ := List.append_of_mem hx
  have hc := h.chain
  simp only [List.append_assoc, List.cons_append] at hc
  have hc' := (List.isChain_append.mp hc).2.1
  cases back with
  | nil => exact ⟨name, by simp, (List.isChain_cons_cons.mp hc').1⟩
  | cons y back => exact ⟨y, by simp, (List.isChain_cons_cons.mp hc').1⟩

lemma trail_length_le (h : IsTrail edges explored before name) :
    before.length ≤ edges.length := by
  have hs : before ⊆ edges.map Prod.fst := by
    intro x hx
    obtain ⟨y, -, hy⟩ := trail_successor h hx
    exact step_source_mem hy
  have hn : before.Nodup := (List.nodup_append.mp h.nodup).1
  simpa using (hn.subperm hs).length_le

lemma trail_reaches_end (h : IsTrail edges explored before name) {x : String}
    (hx : x ∈ before ++ [name]) : ReflTransGen (Step edges) x name := by
  have hp : (before ++ [name]).Pairwise (ReflTransGen (Step edges)) :=
    List.isChain_iff_pairwise.mp (h.chain.imp fun _ _ => ReflTransGen.single)
  rcases List.mem_append.mp hx with hb | he
  · exact (List.pairwise_append.mp hp).2.2 x hb name (List.mem_singleton_self name)
  · rw [List.mem_singleton.mp he]

lemma trail_step_mem (h : IsTrail edges explored before name) {x y : String} (hx : x ∈ before)
    (hy : Step edges x y) : y ∈ before ++ [name] := by
  obtain ⟨z, hz, hxz⟩ := trail_successor h hx
  exact step_unique edges hxz hy ▸ hz

lemma trail_extends (h : IsTrail edges explored before name) {next : String}
    (hstep : Step edges name next) (hv : next ∉ before ++ [name]) (hx : next ∉ explored) :
    IsTrail edges explored (before ++ [name]) next := by
  refine ⟨?_, ?_, ?_⟩
  · exact List.isChain_append.mpr ⟨h.chain, by simp, by simpa using hstep⟩
  · exact List.nodup_append.mpr ⟨h.nodup, by simp, fun a ha b hb =>
      List.mem_singleton.mp hb ▸ ne_of_mem_of_not_mem ha hv⟩
  · intro x hx'
    rcases List.mem_append.mp hx' with hb | hn
    · exact h.fresh x hb
    · exact List.mem_singleton.mp hn ▸ hx

lemma trail_ends_without_edge (h : IsTrail edges explored before name)
    (he : edges.lookup name = none) : EndsWell edges explored ⟨before ++ [name], none⟩ := by
  have hn : ∀ y, ¬Step edges name y := by
    intro y hy
    rw [Step, he] at hy
    cases hy
  refine ⟨h.fresh, ?_, by simp, ?_⟩
  · intro x hx y hy
    rcases List.mem_append.mp hx with hb | he
    · exact .inl (trail_step_mem h hb hy)
    · exact absurd (List.mem_singleton.mp he ▸ hy) (hn y)
  · intro x hx hxx
    have hreach := trail_reaches_end h hx
    have hnn : TransGen (Step edges) name name :=
      (hxx.trans_left hreach).trans_right (returns_to_cycle (step_unique edges) hxx hreach)
    obtain ⟨y, hy, -⟩ := TransGen.head'_iff.mp hnn
    exact absurd hy (hn y)

/-- Where the walk runs into explored names, a visited name on a cycle would be explored too. -/
lemma trail_ends_in_explored (h : IsTrail edges explored before name)
    (hclosed : ∀ x ∈ explored, ∀ y, Step edges x y → y ∈ explored) {next : String}
    (hstep : Step edges name next) (hnext : next ∈ explored) :
    EndsWell edges explored ⟨before ++ [name], none⟩ := by
  refine ⟨h.fresh, ?_, by simp, ?_⟩
  · intro x hx y hy
    rcases List.mem_append.mp hx with hb | he
    · exact .inl (trail_step_mem h hb hy)
    · exact .inr (step_unique edges hstep (List.mem_singleton.mp he ▸ hy) ▸ hnext)
  · intro x hx hxx
    have hreach := (trail_reaches_end h hx).tail hstep
    exact absurd (mem_of_cycle_meets (step_unique edges) hclosed hxx hreach hnext) (h.fresh x hx)

lemma trail_back_circuit (h : IsTrail edges explored before name) {front back : List String}
    {next : String} (hstep : Step edges name next)
    (hsplit : before ++ [name] = front ++ next :: back) :
    IsCircuit (Step edges) (next :: back) ∧ name ∈ next :: back := by
  have hlast : (next :: back).getLast? = some name := by
    have hl := congrArg List.getLast? hsplit
    simpa using hl.symm
  have hchain := h.chain
  rw [hsplit] at hchain
  refine ⟨⟨by simp, ?_, ?_⟩, List.mem_of_getLast? hlast⟩
  · exact (List.nodup_append.mp (hsplit ▸ h.nodup)).2.1
  · rw [Cycle.chain_coe_cons, ← List.cons_append]
    refine List.isChain_append.mpr ⟨(List.isChain_append.mp hchain).2.1, by simp, ?_⟩
    simpa [hlast] using hstep

/-- Where the walk comes back to a visited name, it has gone round from there. -/
lemma trail_closes_circuit (h : IsTrail edges explored before name) {next : String}
    (hstep : Step edges name next) (hnext : next ∈ before ++ [name]) :
    EndsWell edges explored
      ⟨before ++ [name], some ((before ++ [name]).dropWhile (· ≠ next))⟩ := by
  obtain ⟨front, back, hsplit, hfront⟩ := List.eq_append_cons_of_mem hnext
  have hdrop : (before ++ [name]).dropWhile (· ≠ next) = next :: back := by
    rw [hsplit, List.dropWhile_append_of_pos, List.dropWhile_cons_of_neg (by simp)]
    intro x hx
    simpa using ne_of_mem_of_not_mem hx hfront
  obtain ⟨hcircuit, hname⟩ := trail_back_circuit h hstep hsplit
  rw [hdrop]
  refine ⟨h.fresh, ?_, ?_, ?_⟩
  · intro x hx y hy
    rcases List.mem_append.mp hx with hb | he
    · exact .inl (trail_step_mem h hb hy)
    · exact .inl (step_unique edges hstep (List.mem_singleton.mp he ▸ hy) ▸ hnext)
  · intro names hnames
    obtain rfl : next :: back = names := Option.some.inj hnames
    exact ⟨hcircuit, fun x hx => hsplit ▸ List.mem_append_right front hx⟩
  · intro x hx hxx
    -- The trail from a visited name on a cycle runs into this circuit, which no edge leaves.
    refine ⟨next :: back, rfl, ?_⟩
    refine mem_of_cycle_meets (step_unique edges) ?_ hxx (trail_reaches_end h hx) hname
    intro z hz y hy
    obtain ⟨w, hw, hzw⟩ := circuit_successor hcircuit hz
    exact step_unique edges hzw hy ▸ hw

lemma follow_ends_well (h : IsTrail edges explored before name)
    (hclosed : ∀ x ∈ explored, ∀ y, Step edges x y → y ∈ explored) {fuel : Nat}
    (hfuel : edges.length < before.length + fuel) :
    EndsWell edges explored (Cycle.follow edges explored fuel (before ++ [name]) name) := by
  induction fuel generalizing before name with
  | zero =>
    have hl := trail_length_le h
    omega
  | succ fuel ih =>
    rw [Cycle.follow]
    cases he : edges.lookup name with
    | none => exact trail_ends_without_edge h he
    | some next =>
      dsimp only
      by_cases hv : next ∈ before ++ [name]
      · rw [if_pos hv]
        exact trail_closes_circuit h he hv
      · rw [if_neg hv]
        by_cases hx : next ∈ explored
        · rw [if_pos hx]
          exact trail_ends_in_explored h hclosed he hx
        · rw [if_neg hx]
          exact ih (trail_extends h he hv hx)
            (by simp only [List.length_append, List.length_singleton]; omega)

lemma follow_visits (fuel : Nat) (visited : List String) (name : String) {x : String}
    (hx : x ∈ visited) : x ∈ (Cycle.follow edges explored fuel visited name).visited := by
  induction fuel generalizing visited name with
  | zero => exact hx
  | succ fuel ih =>
    rw [Cycle.follow]
    cases edges.lookup name with
    | none => exact hx
    | some next =>
      dsimp only
      split
      · exact hx
      · split
        · exact hx
        · exact ih _ _ (List.mem_append_left _ hx)

end Trail

/-- What the search reports from sources on: circuits outside the explored names, no two of them
meeting, and all the cycles that a source is on. -/
structure Reports (edges : Cycle.Edges) (explored sources : List String)
    (cycles : List (List String)) : Prop where
  circuit : ∀ names ∈ cycles, IsCircuit (Step edges) names
  fresh : ∀ names ∈ cycles, ∀ x ∈ names, x ∉ explored
  apart : cycles.Pairwise List.Disjoint
  covered : ∀ x ∈ sources, x ∉ explored → TransGen (Step edges) x x → ∃ names ∈ cycles, x ∈ names

section Search

variable {edges : Cycle.Edges} {explored sources : List String} {cycles : List (List String)}
  {source : String}

lemma reports_explored (hs : source ∈ explored) (h : Reports edges explored sources cycles) :
    Reports edges explored (source :: sources) cycles := by
  obtain ⟨hcircuit, hfresh, hapart, hcovered⟩ := h
  refine ⟨hcircuit, hfresh, hapart, ?_⟩
  intro x hx hxe
  rcases List.mem_cons.mp hx with he | hx
  · exact absurd (he ▸ hs) hxe
  · exact hcovered x hx hxe

lemma reports_trail {trail : Cycle.Trail} (hend : EndsWell edges explored trail)
    (hsource : source ∈ trail.visited)
    (h : Reports edges (explored ++ trail.visited) sources cycles) :
    Reports edges explored (source :: sources) (trail.cycle.toList ++ cycles) := by
  obtain ⟨hcircuit, hfresh, hapart, hcovered⟩ := h
  refine ⟨?_, ?_, ?_, ?_⟩
  · intro names hn
    rcases List.mem_append.mp hn with hn | hn
    · exact (hend.circuit names (by simpa using hn)).1
    · exact hcircuit names hn
  · intro names hn x hx
    rcases List.mem_append.mp hn with hn | hn
    · exact hend.fresh x ((hend.circuit names (by simpa using hn)).2 x hx)
    · exact fun he => hfresh names hn x hx (List.mem_append_left _ he)
  · refine List.pairwise_append.mpr ⟨?_, hapart, ?_⟩
    · cases trail.cycle <;> simp
    · intro names hn other ho x hx hx'
      have hv := (hend.circuit names (by simpa using hn)).2 x hx
      exact hfresh other ho x hx' (List.mem_append_right _ hv)
  · intro x hx hxe hxx
    by_cases hv : x ∈ trail.visited
    · obtain ⟨names, hn, hxn⟩ := hend.covered x hv hxx
      exact ⟨names, List.mem_append_left _ (by simpa using hn), hxn⟩
    · have hx' : x ∈ sources := by
        rcases List.mem_cons.mp hx with he | hx
        · exact absurd (he ▸ hsource) hv
        · exact hx
      obtain ⟨names, hn, hxn⟩ := hcovered x hx' (by simp [hxe, hv]) hxx
      exact ⟨names, List.mem_append_right _ hn, hxn⟩

lemma walk_ends_well (hclosed : ∀ x ∈ explored, ∀ y, Step edges x y → y ∈ explored)
    (hs : source ∉ explored) :
    EndsWell edges explored (Cycle.follow edges explored (edges.length + 1) [source] source) ∧
      source ∈ (Cycle.follow edges explored (edges.length + 1) [source] source).visited := by
  have hstart : IsTrail edges explored [] source := ⟨by simp, by simp, by simpa using hs⟩
  have hfuel : edges.length < ([] : List String).length + (edges.length + 1) := by simp
  exact ⟨follow_ends_well hstart hclosed hfuel, follow_visits _ _ _ (by simp)⟩

lemma explored_closed {trail : Cycle.Trail}
    (hclosed : ∀ x ∈ explored, ∀ y, Step edges x y → y ∈ explored)
    (hend : EndsWell edges explored trail) :
    ∀ x ∈ explored ++ trail.visited, ∀ y, Step edges x y → y ∈ explored ++ trail.visited := by
  intro x hx y hy
  rcases List.mem_append.mp hx with hx | hx
  · exact List.mem_append_left _ (hclosed x hx y hy)
  · exact List.mem_append.mpr (hend.closed x hx y hy).symm

lemma search_reports (edges : Cycle.Edges) (explored sources : List String)
    (hclosed : ∀ x ∈ explored, ∀ y, Step edges x y → y ∈ explored) :
    Reports edges explored sources (Cycle.search edges explored sources) := by
  induction sources generalizing explored with
  | nil => exact ⟨by simp [Cycle.search], by simp [Cycle.search], by simp [Cycle.search], by simp⟩
  | cons source sources ih =>
    rw [Cycle.search]
    by_cases hs : source ∈ explored
    · rw [if_pos hs]
      exact reports_explored hs (ih explored hclosed)
    · rw [if_neg hs]
      dsimp only
      obtain ⟨hend, hsource⟩ := walk_ends_well hclosed hs
      generalize Cycle.follow edges explored (edges.length + 1) [source] source = trail at *
      exact reports_trail hend hsource (ih _ (explored_closed hclosed hend))

end Search

/-- The cycles of a graph, each listed once. -/
structure ListsCycles (r : String → String → Prop) (cycles : List (List String)) : Prop where
  circuit : ∀ names ∈ cycles, IsCircuit r names
  apart : cycles.Pairwise List.Disjoint
  /-- Circuits of one cycle differ by where they start. -/
  complete : ∀ circuit, IsCircuit r circuit → ∃ names ∈ cycles, names ~r circuit
  onCycle : ∀ name, TransGen r name name ↔ ∃ names ∈ cycles, name ∈ names

theorem find_lists_cycles (edges : Cycle.Edges) :
    ListsCycles (Step edges) (Cycle.find edges) := by
  obtain ⟨hcircuit, -, hapart, hcovered⟩ :=
    search_reports edges [] (edges.map Prod.fst) (by simp)
  have hlisted : ∀ name, TransGen (Step edges) name name →
      ∃ names ∈ Cycle.find edges, name ∈ names := by
    intro name hname
    obtain ⟨next, hnext, -⟩ := TransGen.head'_iff.mp hname
    exact hcovered name (step_source_mem hnext) (by simp) hname
  refine ⟨hcircuit, hapart, ?_, fun name => ⟨hlisted name, ?_⟩⟩
  · intro circuit hc
    obtain ⟨name, hname⟩ := List.exists_mem_of_ne_nil circuit hc.nonempty
    obtain ⟨names, hn, hmem⟩ := hlisted name (circuit_reaches hc hname hname)
    exact ⟨names, hn, circuits_rotated (step_unique edges) (hcircuit names hn) hc hmem hname⟩
  · rintro ⟨names, hn, hname⟩
    exact circuit_reaches (hcircuit names hn) hname hname

end JsonTypeDefinition.Proofs

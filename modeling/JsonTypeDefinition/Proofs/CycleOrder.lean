import JsonTypeDefinition.Proofs.Circuits

/-!
# The order of the cycles that a search lists

A walk that closes a cycle has come to it by names that are not on it. The sources that were tried
before do not lead there, so that a search lists the cycles in the order in which the sources that
lead to them are declared.
-/

open Relation

namespace JsonTypeDefinition.Proofs

def HasEdge (edges : Cycle.Edges) (source target : String) : Prop :=
  (source, target) ∈ edges

/-- The walk from a source comes to the names of a cycle, first to the first of them. -/
def ComesTo (r : String → String → Prop) (source : String) (names : List String) : Prop :=
  ∃ way, (way ++ names).head? = some source ∧ List.IsChain r (way ++ names) ∧
    ∀ x ∈ way, x ∉ names

/-- A source leads to a cycle, and none that is declared earlier does. -/
structure IsEarliest (r : String → String → Prop) (sources : List String) (source : String)
    (names : List String) : Prop where
  comes : ComesTo r source names
  earliest : ∀ earlier ∈ sources.takeWhile (· ≠ source), ∀ x ∈ names, ¬ ReflTransGen r earlier x

/-- The cycles of a graph, each once, in the order of the earliest sources that lead to them, and
each from where the walk from that source comes to it. -/
structure ListsInOrder (edges : Cycle.Edges) (cycles : List (List String)) : Prop where
  listed : ListsCycles (HasEdge edges) cycles
  ordered : ∃ starts, starts.Sublist (edges.map Prod.fst) ∧
    List.Forall₂ (IsEarliest (HasEdge edges) (edges.map Prod.fst)) starts cycles

section Walks

variable {edges : Cycle.Edges} {explored before : List String} {name : String}

lemma follow_comes (h : IsTrail edges explored before name) (fuel : Nat) {names : List String}
    (hnames : names ∈ (Cycle.follow edges explored fuel (before ++ [name]) name).cycle) :
    ∃ way, before ++ [name] <+: way ++ names ∧ List.IsChain (Step edges) (way ++ names) ∧
      ∀ x ∈ way, x ∉ names := by
  induction fuel generalizing before name with
  | zero => simp [Cycle.follow] at hnames
  | succ fuel ih =>
    rw [Cycle.follow] at hnames
    cases he : edges.lookup name with
    | none => simp [he] at hnames
    | some next =>
      simp only [he] at hnames
      by_cases hv : next ∈ before ++ [name]
      · rw [if_pos hv] at hnames
        obtain rfl := Option.some.inj hnames
        refine ⟨(before ++ [name]).takeWhile (· ≠ next), ?_, ?_, ?_⟩
        · rw [List.takeWhile_append_dropWhile]
        · rw [List.takeWhile_append_dropWhile]
          exact h.chain
        · intro x hx hx'
          have hn := h.nodup
          rw [← List.takeWhile_append_dropWhile (p := (· ≠ next)) (l := before ++ [name])] at hn
          exact (List.nodup_append.mp hn).2.2 x hx x hx' rfl
      · rw [if_neg hv] at hnames
        by_cases hx : next ∈ explored
        · simp [hx] at hnames
        · rw [if_neg hx] at hnames
          obtain ⟨way, hpre, hway⟩ := ih (trail_extends h he hv hx) hnames
          exact ⟨way, (List.prefix_append _ _).trans hpre, hway⟩

lemma follow_more (h : IsTrail edges [] before name) {fuel more : Nat}
    (hfuel : edges.length < before.length + fuel) (hmore : fuel ≤ more) :
    Cycle.follow edges explored more (before ++ [name]) name =
      Cycle.follow edges explored fuel (before ++ [name]) name := by
  induction fuel generalizing before name more with
  | zero =>
    have hl := trail_length_le h
    omega
  | succ fuel ih =>
    obtain ⟨more, rfl⟩ : ∃ m, more = m + 1 := ⟨more - 1, by omega⟩
    rw [Cycle.follow, Cycle.follow]
    cases he : edges.lookup name with
    | none => rfl
    | some next =>
      dsimp only
      by_cases hv : next ∈ before ++ [name]
      · rw [if_pos hv, if_pos hv]
      · rw [if_neg hv, if_neg hv]
        by_cases hx : next ∈ explored
        · rw [if_pos hx, if_pos hx]
        · rw [if_neg hx, if_neg hx]
          apply ih (trail_extends h he hv (by simp))
          · rw [List.length_append, List.length_singleton]
            omega
          · omega

end Walks

section Searches

variable {edges : Cycle.Edges} {explored : List String}

lemma closed_reaches (hclosed : ∀ x ∈ explored, ∀ y, Step edges x y → y ∈ explored)
    {x y : String} (hx : x ∈ explored) (hxy : ReflTransGen (Step edges) x y) : y ∈ explored := by
  induction hxy with
  | refl => exact hx
  | tail _ hyz ih => exact hclosed _ ih _ hyz

/-- No name of some list leads to a cycle. -/
def Unreached (r : String → String → Prop) (before names : List String) : Prop :=
  ∀ earlier ∈ before, ∀ x ∈ names, ¬ ReflTransGen r earlier x

lemma unreached_of_fresh (hclosed : ∀ x ∈ explored, ∀ y, Step edges x y → y ∈ explored)
    {names : List String} (hfresh : ∀ x ∈ names, x ∉ explored) :
    Unreached (Step edges) explored names := by
  intro earlier he x hx hreach
  exact hfresh x hx (closed_reaches hclosed he hreach)

/-- A source is the earliest of some sources that lead to a cycle, and nothing explored does. -/
structure LeadsFirst (edges : Cycle.Edges) (explored sources : List String) (source : String)
    (names : List String) : Prop where
  earliest : IsEarliest (Step edges) sources source names
  unreached : Unreached (Step edges) explored names

lemma leadsFirst_after {source start : String} {sources visited names : List String}
    (hsource : source ∈ explored ++ visited)
    (h : LeadsFirst edges (explored ++ visited) sources start names) :
    LeadsFirst edges explored (source :: sources) start names := by
  refine ⟨⟨h.earliest.comes, ?_⟩, fun earlier he => h.unreached earlier (List.mem_append_left _ he)⟩
  intro earlier he
  rw [List.takeWhile_cons] at he
  split_ifs at he
  · rcases List.mem_cons.mp he with rfl | he
    · exact h.unreached earlier hsource
    · exact h.earliest.earliest earlier he
  · cases he

lemma walk_leads_first (hclosed : ∀ x ∈ explored, ∀ y, Step edges x y → y ∈ explored)
    {source : String} (hs : source ∉ explored) (sources names : List String)
    (hnames : names ∈
      (Cycle.follow edges explored (edges.length + 1) [source] source).cycle) :
    LeadsFirst edges explored (source :: sources) source names := by
  have hend := (walk_ends_well hclosed hs).1
  have hstart : IsTrail edges explored [] source := ⟨by simp, by simp, by simpa using hs⟩
  obtain ⟨way, hpre, hchain, hway⟩ := follow_comes hstart (edges.length + 1) hnames
  have hhead : (way ++ names).head? = some source := by
    obtain ⟨more, hmore⟩ := hpre
    rw [← hmore]
    rfl
  refine ⟨⟨⟨way, hhead, hchain, hway⟩, by simp⟩, ?_⟩
  apply unreached_of_fresh hclosed
  intro x hx
  exact hend.fresh x ((hend.circuit names hnames).2 x hx)

lemma search_ordered (edges : Cycle.Edges) (explored sources : List String)
    (hclosed : ∀ x ∈ explored, ∀ y, Step edges x y → y ∈ explored) :
    ∃ starts, starts.Sublist sources ∧
      List.Forall₂ (LeadsFirst edges explored sources) starts
        (Cycle.search edges explored sources) := by
  induction sources generalizing explored with
  | nil => exact ⟨[], .refl [], .nil⟩
  | cons source sources ih =>
    rw [Cycle.search]
    by_cases hs : source ∈ explored
    · obtain ⟨starts, hsub, hstarts⟩ := ih explored hclosed
      rw [if_pos hs]
      refine ⟨starts, hsub.cons source, hstarts.imp ?_⟩
      intro start names h
      have hsource : source ∈ explored ++ [] := by rwa [List.append_nil]
      have hlater : LeadsFirst edges (explored ++ []) sources start names := by
        rwa [List.append_nil]
      exact leadsFirst_after hsource hlater
    · obtain ⟨hend, hsource⟩ := walk_ends_well hclosed hs
      have hwalk := walk_leads_first hclosed hs sources
      rw [if_neg hs]
      dsimp only
      generalize Cycle.follow edges explored (edges.length + 1) [source] source = trail at *
      obtain ⟨starts, hsub, hstarts⟩ := ih _ (explored_closed hclosed hend)
      have hrest : List.Forall₂ (LeadsFirst edges explored (source :: sources)) starts
          (Cycle.search edges (explored ++ trail.visited) sources) :=
        hstarts.imp fun _ _ h => leadsFirst_after (List.mem_append_right explored hsource) h
      cases hcycle : trail.cycle with
      | none => exact ⟨starts, hsub.cons source, hrest⟩
      | some names =>
        exact ⟨source :: starts, hsub.cons_cons source, .cons (hwalk names hcycle) hrest⟩

end Searches

lemma step_eq_hasEdge {edges : Cycle.Edges} (h : (edges.map Prod.fst).Nodup) :
    Step edges = HasEdge edges := by
  funext source target
  apply propext
  constructor
  · intro hstep
    obtain ⟨before, after, he, -⟩ := List.lookup_eq_some_iff.mp hstep
    exact he ▸ List.mem_append_right before List.mem_cons_self
  · intro hmem
    obtain ⟨before, after, rfl⟩ := List.append_of_mem hmem
    refine List.lookup_eq_some_iff.mpr ⟨before, after, rfl, ?_⟩
    intro edge hedge
    rw [List.map_append, List.map_cons] at h
    have hne := (List.nodup_append.mp h).2.2 edge.1 (List.mem_map_of_mem hedge) source (by simp)
    simpa using hne.symm

/-- A search lists the cycles of a graph in order, and its walks end by themselves. -/
theorem find_in_order (edges : Cycle.Edges) (h : (edges.map Prod.fst).Nodup) :
    ListsInOrder edges (Cycle.find edges) ∧
      ∀ explored source fuel, edges.length < fuel →
        Cycle.follow edges explored fuel [source] source =
          Cycle.follow edges explored (edges.length + 1) [source] source := by
  have hlisted := find_lists_cycles edges
  obtain ⟨starts, hsub, hstarts⟩ := search_ordered edges [] (edges.map Prod.fst) (by simp)
  rw [step_eq_hasEdge h] at hlisted
  refine ⟨⟨hlisted, starts, hsub, hstarts.imp ?_⟩, ?_⟩
  · intro start names hfirst
    rw [← step_eq_hasEdge h]
    exact hfirst.earliest
  · intro explored source fuel hfuel
    have hstart : IsTrail edges [] [] source := ⟨by simp, by simp, by simp⟩
    exact follow_more hstart (by simp) hfuel

/-- Two sources outside a cycle that lead to it, a name that leads to itself and one to nothing. -/
def tailedEdges : Cycle.Edges :=
  [("a", "c"), ("b", "a"), ("c", "d"), ("e", "e"), ("d", "c"), ("f", "g")]

theorem tailedEdges_in_order :
    Cycle.find tailedEdges = [["c", "d"], ["e"]] ∧
      ListsInOrder tailedEdges [["c", "d"], ["e"]] := by
  have hfind : Cycle.find tailedEdges = [["c", "d"], ["e"]] := by decide
  have horder := (find_in_order tailedEdges (by decide)).1
  exact ⟨hfind, hfind ▸ horder⟩

section Striking

variable {edges : Cycle.Edges} {explored left : List String}

/-- The names that are left when some are struck off. -/
def strike (names left : List String) : List String :=
  left.filter (· ∉ names)

lemma strike_apart {names : List String} (h : ∀ x ∈ left, x ∉ names) :
    strike names left = left := by
  rw [strike, List.filter_eq_self]
  simpa using h

lemma strike_strike {names more all : List String} (h : ∀ x, x ∈ all ↔ x ∈ names ∨ x ∈ more) :
    strike more (strike names left) = strike all left := by
  rw [strike, strike, strike, List.filter_filter]
  apply List.filter_congr
  intro x _
  simp only [h, not_or, Bool.decide_and, Bool.and_comm]

/-- A walk that strikes the names it meets off the sources that are left. -/
def followStriking (edges : Cycle.Edges) (explored : List String) :
    Nat → List String → List String → String → Cycle.Trail × List String
  | 0, left, visited, _ => (⟨visited, none⟩, left)
  | fuel + 1, left, visited, name =>
    match edges.lookup name with
    | none => (⟨visited, none⟩, left)
    | some next =>
      let left := strike [next] left
      if next ∈ visited then (⟨visited, some (visited.dropWhile (· ≠ next))⟩, left)
      else if next ∈ explored then (⟨visited, none⟩, left)
      else followStriking edges explored fuel left (visited ++ [next]) next

/-- Walks from the first source that is left, so long as there is one. `fuel` bounds the walks. -/
def searchStriking (edges : Cycle.Edges) :
    Nat → List String → List String → List (List String)
  | 0, _, _ => []
  | _ + 1, _, [] => []
  | fuel + 1, explored, source :: left =>
    let walk := followStriking edges explored (edges.length + 1) left [source] source
    walk.1.cycle.toList ++ searchStriking edges fuel (explored ++ walk.1.visited) walk.2

lemma followStriking_eq (fuel : Nat) (visited : List String) (name : String)
    (hexplored : ∀ x ∈ left, x ∉ explored) (hvisited : ∀ x ∈ left, x ∉ visited) :
    followStriking edges explored fuel left visited name =
      (Cycle.follow edges explored fuel visited name,
        strike (Cycle.follow edges explored fuel visited name).visited left) := by
  induction fuel generalizing left visited name with
  | zero => rw [followStriking, Cycle.follow, strike_apart hvisited]
  | succ fuel ih =>
    rw [followStriking, Cycle.follow]
    cases edges.lookup name with
    | none =>
      dsimp only
      rw [strike_apart hvisited]
    | some next =>
      have hknown : ∀ {names : List String}, (∀ x ∈ left, x ∉ names) → next ∈ names →
          strike [next] left = left := by
        intro names hnames hnext
        apply strike_apart
        intro x hx he
        exact hnames x hx (List.mem_singleton.mp he ▸ hnext)
      dsimp only
      by_cases hv : next ∈ visited
      · rw [if_pos hv, if_pos hv, hknown hvisited hv, strike_apart hvisited]
      · rw [if_neg hv, if_neg hv]
        by_cases hx : next ∈ explored
        · rw [if_pos hx, if_pos hx, hknown hexplored hx, strike_apart hvisited]
        · rw [if_neg hx, if_neg hx]
          have hleft : ∀ x ∈ strike [next] left, x ∈ left ∧ x ≠ next := by
            intro x hx
            simpa [strike] using hx
          have hmet : next ∈
              (Cycle.follow edges explored fuel (visited ++ [next]) next).visited :=
            follow_visits _ _ _ (by simp)
          rw [ih (visited ++ [next]) next (fun x hx => hexplored x (hleft x hx).1)]
          · rw [strike_strike]
            intro x
            simp only [List.mem_singleton, iff_or_self]
            rintro rfl
            exact hmet
          · intro x hx
            have hne := (hleft x hx).2
            simp [hvisited x (hleft x hx).1, hne]

lemma searchStriking_eq (explored sources : List String) (hsources : sources.Nodup) {fuel : Nat}
    (hfuel : sources.length ≤ fuel) :
    searchStriking edges fuel explored (strike explored sources) =
      Cycle.search edges explored sources := by
  induction sources generalizing explored fuel with
  | nil => cases fuel <;> rfl
  | cons source sources ih =>
    obtain ⟨hnot, hsources⟩ := List.nodup_cons.mp hsources
    rw [Cycle.search]
    by_cases hs : source ∈ explored
    · have hstruck : strike explored (source :: sources) = strike explored sources := by
        simp [strike, hs]
      rw [if_pos hs, hstruck]
      exact ih explored hsources (Nat.le_of_succ_le hfuel)
    · have hstruck : strike explored (source :: sources) = source :: strike explored sources := by
        simp [strike, hs]
      obtain ⟨fuel, rfl⟩ : ∃ n, fuel = n + 1 := Nat.exists_eq_succ_of_ne_zero (by
        rw [List.length_cons] at hfuel
        omega)
      have hleft : ∀ x ∈ strike explored sources, x ∈ sources ∧ x ∉ explored := by
        intro x hx
        simpa [strike] using hx
      have hexplored : ∀ x ∈ strike explored sources, x ∉ explored := fun x hx => (hleft x hx).2
      have hvisited : ∀ x ∈ strike explored sources, x ∉ [source] := by
        intro x hx he
        exact hnot (List.mem_singleton.mp he ▸ (hleft x hx).1)
      rw [if_neg hs, hstruck, searchStriking, followStriking_eq _ _ _ hexplored hvisited]
      dsimp only
      rw [strike_strike (fun x => List.mem_append), ih _ hsources (Nat.le_of_succ_le_succ hfuel)]

/-- To strike each name that is met off the sources left is to pass over the explored ones. -/
theorem find_strikes (h : (edges.map Prod.fst).Nodup) :
    searchStriking edges edges.length [] (edges.map Prod.fst) = Cycle.find edges := by
  have hall : strike [] (edges.map Prod.fst) = edges.map Prod.fst := strike_apart (by simp)
  have hsearch : searchStriking edges edges.length [] (strike [] (edges.map Prod.fst)) =
      Cycle.find edges := searchStriking_eq [] _ h (by simp)
  rwa [hall] at hsearch

end Striking

end JsonTypeDefinition.Proofs

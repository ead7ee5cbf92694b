/-!
# Cycles of bare references

Each name has at most one successor. `Cycle.find` lists the cycles of such a graph, each once, in
the order of the declared sources that lead to them, and each from the first of its names that is
met on the way.
-/

namespace JsonTypeDefinition.Cycle

/-- The edges of a graph in declaration order; no name is the source of two. -/
abbrev Edges := List (String × String)

/-- The end of a walk along the edges. -/
structure Trail where
  /-- The names met for the first time, in order. -/
  visited : List String
  /-- The cycle the walk ran into, if that is new. -/
  cycle : Option (List String)
  deriving DecidableEq

/-- Follows the edges from `name`, the last of the `visited` names, until there is no edge or the
next name is known. `fuel` bounds the steps; one more than the number of edges is enough. -/
def follow (edges : Edges) (explored : List String) : Nat → List String → String → Trail
  | 0, visited, _ => ⟨visited, none⟩
  | fuel + 1, visited, name =>
    match edges.lookup name with
    | none => ⟨visited, none⟩
    | some next =>
      if next ∈ visited then ⟨visited, some (visited.dropWhile (· ≠ next))⟩
      else if next ∈ explored then ⟨visited, none⟩
      else follow edges explored fuel (visited ++ [next]) next

/-- Walks from each source that no earlier walk has met. -/
def search (edges : Edges) : List String → List String → List (List String)
  | _, [] => []
  | explored, source :: sources =>
    if source ∈ explored then search edges explored sources
    else
      let trail := follow edges explored (edges.length + 1) [source] source
      trail.cycle.toList ++ search edges (explored ++ trail.visited) sources

def find (edges : Edges) : List (List String) :=
  search edges [] (edges.map Prod.fst)

end JsonTypeDefinition.Cycle

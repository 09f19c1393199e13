import Workflow.Graph.Reach
import Workflow.Text.Surrogate

/-!
# Cycles

The simple cycles of a graph: the ways round along edges that pass no node twice. Parallel edges
count once, and edges to unknown nodes not at all. As a graph may have very many cycles, only as
many are sought as are asked for.
-/

namespace Workflow

/-- The first `limit` items of a sequence of lists, each of which is computed up to a limit. -/
def upTo {α β : Type} (limit : Nat) (items : Nat → α → List β) : List α → List β
  | [] => []
  | a :: rest =>
    if limit = 0 then []
    else
      let found := items limit a
      found ++ upTo (limit - found.length) items rest

/-- Whether `root` can be reached from `id` through the given other ids. -/
def leadsTo (next : String → List String) (root : String) (through : List String) (id : String) :
    Bool :=
  (explore next (root :: through) [id]).contains root

/--
At most `limit` of the simple ways from `current` back to `root` that pass only through the given
other ids, of which there are at most as many as the last number says. Only ids from which the root
can still be reached are tried, so no search is in vain.
-/
def waysBack (next : String → List String) (root : String) :
    Nat → List String → String → Nat → List (List String)
  | depth, through, current, limit =>
    upTo limit
      (fun bound id =>
        if id = root then [[current]]
        else
          match depth with
          | 0 => []
          | depth + 1 =>
            if id ∈ through ∧ leadsTo next root through id then
              (waysBack next root depth (through.erase id) id bound).map (current :: ·)
            else [])
      (next current).eraseDups

/--
At most `limit` simple cycles through the given ids; each begins at the first of its ids here.
-/
def cyclesWithin (next : String → List String) (limit : Nat) : List String → List (List String)
  | [] => []
  | root :: others =>
    let found := waysBack next root others.length others root limit
    found ++ cyclesWithin next (limit - found.length) others

/-- Whether one list of ids comes before another, by code points. -/
def idsBefore : List String → List String → Bool
  | [], _ => true
  | _ :: _, [] => false
  | a :: as, b :: bs => if a = b then idsBefore as bs else Text.before a b

/-- The least of some ids. -/
def leastId (first : String) (others : List String) : String :=
  others.foldl (fun least id => if Text.before id least then id else least) first

/-- The same cycle begun at its least id. -/
def fromLeast (cycle : List String) : List String :=
  match cycle with
  | [] => []
  | first :: others =>
    let least := leastId first others
    cycle.dropWhile (· ≠ least) ++ cycle.takeWhile (· ≠ least)

/-- At most `limit` of the simple cycles of a graph, in the order of their ids. -/
def Graph.cycles (g : Graph) (limit : Nat) : List (List String) :=
  ((cyclesWithin g.targets limit g.ids).map fromLeast).mergeSort idsBefore

end Workflow

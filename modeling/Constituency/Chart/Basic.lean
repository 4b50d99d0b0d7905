import Constituency.Chart.Filing
import Constituency.Item.Basic

/-
  This file defines charts: the items found so far, each
  key at most once, in the order in which they were
  admitted. Four tables tell the places of the items: by
  key, by where they start, by where they stop, and by both.

  Key definitions include:
    * `Chart`
    * `Chart.new`
    * `Chart.positions`
    * `Chart.startingAt`
    * `Chart.endingAt`
    * `Chart.spanning`
    * `Chart.nthEndingAt`
    * `Chart.get?`
    * `Chart.contains`
    * `Chart.insert?`
    * `Chart.add?`
    * `Chart.enter`
-/

namespace Constituency

/-
  A chart. The rows of all tables are numbered by positions;
  those of `cells` and `index` are the ones where items
  stop. In a cell a place is labelled with the start of its
  item, in the index with its key.
-/
structure Chart (G : Grammar) where
  items : Array (Item G)
  index : Buckets (ItemKey G × Nat)
  starts : Buckets Nat
  ends : Buckets Nat
  cells : Buckets (Nat × Nat)
  size_index : index.size = ends.size
  size_starts : starts.size = ends.size
  size_cells : cells.size = ends.size
  files_index :
    index.FilesUnder items Item.stop Item.key
  files_starts : starts.Files items Item.start
  files_ends : ends.Files items Item.stop
  files_cells :
    cells.FilesUnder items Item.stop Item.start
  nodup_keys : (items.toList.map Item.key).Nodup

namespace Chart

variable {G : Grammar}

/- The empty chart for an input of `n` words. -/
def new
    (G : Grammar)
    (n : Nat) : Chart G where
  items := #[]
  index := Buckets.empty (n + 1)
  starts := Buckets.empty (n + 1)
  ends := Buckets.empty (n + 1)
  cells := Buckets.empty (n + 1)
  size_index := by simp
  size_starts := by simp
  size_cells := by simp
  files_index := Buckets.filesUnder_empty _ _ _
  files_starts := Buckets.files_empty _ _
  files_ends := Buckets.files_empty _ _
  files_cells := Buckets.filesUnder_empty _ _ _
  nodup_keys := by simp

/- The number of items. -/
def size
    (C : Chart G) : Nat :=
  C.items.size

/- The number of positions that the chart knows of. -/
def positions
    (C : Chart G) : Nat :=
  C.ends.size

------------------------------------------------------------
-- Looking Items Up
------------------------------------------------------------

/- The items at some places. -/
def collect
    (C : Chart G)
    (places : List Nat) : List (Item G) :=
  places.filterMap (C.items[·]?)

/- The items that start at a position. -/
def startingAt
    (C : Chart G)
    (position : Nat) : List (Item G) :=
  C.collect (C.starts.row position).toList

/- The items that stop at a position. -/
def endingAt
    (C : Chart G)
    (position : Nat) : List (Item G) :=
  C.collect (C.ends.row position).toList

/- The items over one span. -/
def spanning
    (C : Chart G)
    (span : Span) : List (Item G) :=
  C.collect (C.cells.under span.stop span.start)

/- One of the items that stop at a position. -/
def nthEndingAt
    (C : Chart G)
    (position n : Nat) : Option (Item G) :=
  (C.ends.row position)[n]?.bind (C.items[·]?)

/- The place of the item with a key. -/
def placeOf?
    (C : Chart G)
    (key : ItemKey G) : Option Nat :=
  (C.index.under key.span.stop key).head?

/- The item with a key. -/
def get?
    (C : Chart G)
    (key : ItemKey G) : Option (Item G) :=
  (C.placeOf? key).bind (C.items[·]?)

/- Some item has the key. -/
def contains
    (C : Chart G)
    (key : ItemKey G) : Bool :=
  (C.placeOf? key).isSome

/- The index looks a key up among the items. -/
theorem map_placeOf?
    (C : Chart G)
    (key : ItemKey G) :
    (C.placeOf? key).map (C.items[·]?) =
      (C.items.toList.find?
        (fun item => item.key = key)).map some := by
  have hTest :
      (fun item : Item G =>
          decide (item.stop = key.span.stop ∧
            item.key = key)) =
        (fun item => decide (item.key = key)) := by
    funext item
    apply decide_eq_decide.mpr
    constructor
    · exact fun hBoth => hBoth.2
    · rintro rfl
      exact ⟨rfl, rfl⟩
  unfold placeOf?
  rw [C.files_index, hTest, ← List.head?_map, map_placesOf,
    List.head?_map, List.head?_filter]

/- The chart contains the keys of its items. -/
theorem contains_iff
    (C : Chart G)
    (key : ItemKey G) :
    C.contains key = true ↔
      key ∈ C.items.toList.map Item.key := by
  have hFound :
      C.contains key =
        (C.items.toList.find?
          (fun item => item.key = key)).isSome := by
    have hSame := congrArg Option.isSome (C.map_placeOf? key)
    rwa [Option.isSome_map, Option.isSome_map] at hSame
  rw [hFound, List.find?_isSome, List.mem_map]
  simp only [decide_eq_true_eq]

------------------------------------------------------------
-- Admitting Items
------------------------------------------------------------

/-
  Add an item whose key is new. Positions up to its stop
  become known; its start must be among the known ones.
-/
def push
    (C : Chart G)
    (item : Item G)
    (hNew : C.contains item.key = false)
    (hStart : item.start < max C.positions (item.stop + 1)) :
    Chart G where
  items := C.items.push item
  index :=
    (C.index.extend (item.stop + 1)).file item.stop
      (item.key, C.items.size)
  starts :=
    (C.starts.extend (item.stop + 1)).file item.start
      C.items.size
  ends :=
    (C.ends.extend (item.stop + 1)).file item.stop
      C.items.size
  cells :=
    (C.cells.extend (item.stop + 1)).file item.stop
      (item.start, C.items.size)
  size_index := by simp [C.size_index]
  size_starts := by simp [C.size_starts]
  size_cells := by simp [C.size_cells]
  files_index :=
    C.files_index.push (C.index.lt_size_extend item.stop)
  files_starts := by
    apply C.files_starts.push
    simpa [C.size_starts, positions] using hStart
  files_ends :=
    C.files_ends.push (C.ends.lt_size_extend item.stop)
  files_cells :=
    C.files_cells.push (C.cells.lt_size_extend item.stop)
  nodup_keys := by
    have hAbsent :
        item.key ∉ C.items.toList.map Item.key := by
      rw [← C.contains_iff]
      simp [hNew]
    simp only [Array.toList_push, List.map_append,
      List.map_cons, List.map_nil]
    rw [List.nodup_append]
    refine ⟨C.nodup_keys, by simp, ?_⟩
    rintro key hKey _ hLast rfl
    rw [List.mem_singleton] at hLast
    exact hAbsent (hLast ▸ hKey)

/-
  Add an item unless its key is known, and say whether it
  was added. There is no chart when a new item starts beyond
  every position that is known once its stop is.
-/
def insert?
    (C : Chart G)
    (item : Item G) : Option (Chart G × Bool) :=
  match hNew : C.contains item.key with
  | true => some (C, false)
  | false =>
      if hStart :
          item.start < max C.positions (item.stop + 1) then
        some (C.push item hNew hStart, true)
      else
        none

/-
  Add an item unless its key is known, asking for the key
  before the item is handed on.
-/
def add?
    (C : Chart G)
    (item : Item G) : Option (Chart G × Bool) :=
  if C.contains item.key then
    some (C, false)
  else
    C.insert? item

/-
  As `insert?`, except that an item that cannot be filed is
  left out.
-/
def enter
    (C : Chart G)
    (item : Item G) : Chart G × Bool :=
  (C.insert? item).getD (C, false)

end Chart

end Constituency

import Mathlib
import Dossier.Memory

/-!
# Pages of a read

A read that leaves out the documents of the pages before and takes those of one page gives one page.

* `flatMap_range_take_drop`: the pages of a list, one after the other, are its beginning;
* `ReadShape.present`, `ReadShape.paged`, `ReadShape.present_paged`: what a read gives of documents in
  their order, the shape of a page, and what it gives;
* **`ReadShape.Tiles`**: the pages of some reads together are the read of everything;
* **`Memory.find_pages`**: so it is for every collection, and for every arrangement of the documents.
-/

namespace Dossier

theorem flatMap_range_take_drop {α : Type} (xs : List α) (size count : ℕ) :
    (List.range count).flatMap (fun k => (xs.drop (k * size)).take size) =
      xs.take (count * size) := by
  induction count with
  | zero => simp
  | succ count ih =>
    rw [List.range_succ, List.flatMap_append, ih, List.flatMap_singleton, Nat.succ_mul,
      List.take_add]

namespace ReadShape

variable (shape : ReadShape)

/-- What a read gives of documents that stand in their order already. -/
def present (arranged : List Document) : List Document := (shape.page arranged).map shape.cut

/-- The shape of a read that leaves out the pages before the page `k`, and takes one. -/
def paged (limit : Int64) (size k : ℕ) : ReadShape :=
  { shape with skip := some (UInt64.ofNat (k * size)), limit := some limit }

/-- The shape of a read of all pages. -/
def unpaged : ReadShape := { shape with skip := none, limit := none }

theorem present_unpaged (arranged : List Document) :
    shape.unpaged.present arranged = arranged.map shape.cut := rfl

theorem size?_of_limit {limit : Int64} {size : ℕ} (hsize : 1 ≤ size)
    (hlimit : limit.toInt = size ∨ limit.toInt = -size) :
    ({ shape with limit := some limit } : ReadShape).size? = some size := by
  have hne : limit ≠ 0 := by
    rintro rfl
    rw [Int64.toInt_zero] at hlimit
    omega
  rw [size?, Option.bind_some, if_neg hne]
  congr 1
  omega

variable {shape} {size : ℕ} {limit : Int64}

theorem present_paged {k : ℕ} (hsize : 1 ≤ size)
    (hlimit : limit.toInt = size ∨ limit.toInt = -size) (hk : k * size < UInt64.size)
    (arranged : List Document) :
    (shape.paged limit size k).present arranged =
      ((arranged.drop (k * size)).take size).map shape.cut := by
  have hskip : (UInt64.ofNat (k * size)).toNat = k * size := UInt64.toNat_ofNat_of_lt hk
  have hpage : (shape.paged limit size k).page arranged =
      (arranged.drop (k * size)).take size := by
    have hsize? : (shape.paged limit size k).size? = some size :=
      (shape.paged limit size k).size?_of_limit hsize hlimit
    have hdrop : (((shape.paged limit size k).skip.map UInt64.toNat).getD 0) = k * size := hskip
    rw [page, hsize?, hdrop]
  rw [present, hpage]
  rfl

/-- **The pages of some reads tile the read of everything.** The first `count` pages, as far as 64
bits can count the documents before them, are the first `count * size` documents of the read of
everything, in its order. When 64 bits can count the documents of this read, there are such pages that
together are all of it. A limit of zero is no limit. -/
structure Tiles (read : ReadShape → List Document) (shape : ReadShape) (limit : Int64) (size : ℕ) :
    Prop where
  beginning : ∀ count, (∀ k < count, k * size < UInt64.size) →
    (List.range count).flatMap (fun k => read (shape.paged limit size k)) =
      (read shape.unpaged).take (count * size)
  whole : (read shape.unpaged).length ≤ UInt64.size →
    ∃ count, (∀ k < count, k * size < UInt64.size) ∧
      (List.range count).flatMap (fun k => read (shape.paged limit size k)) = read shape.unpaged
  noLimit : read { shape with limit := some 0 } = read { shape with limit := none }

theorem exists_page_count (length : ℕ) (hsize : 1 ≤ size) :
    ∃ count, length ≤ count * size ∧ ∀ k < count, k * size < length := by
  refine ⟨(length + size - 1) / size, ?_, fun k hk => ?_⟩
  · have hlt := Nat.lt_div_mul_add (a := length + size - 1) hsize
    omega
  · have hle := (Nat.le_div_iff_mul_le hsize).mp (Nat.succ_le_of_lt hk)
    rw [Nat.succ_mul] at hle
    omega

theorem tiles_present (shape : ReadShape) (hsize : 1 ≤ size)
    (hlimit : limit.toInt = size ∨ limit.toInt = -size) (arranged : List Document) :
    Tiles (fun shape => shape.present arranged) shape limit size := by
  have hpages (count : ℕ) (hcount : ∀ k < count, k * size < UInt64.size) :
      (List.range count).flatMap (fun k => (shape.paged limit size k).present arranged) =
        (shape.unpaged.present arranged).take (count * size) := by
    have hpage : ∀ k ∈ List.range count, (shape.paged limit size k).present arranged =
        ((arranged.map shape.cut).drop (k * size)).take size := by
      intro k hk
      rw [present_paged hsize hlimit (hcount k (List.mem_range.mp hk)), List.map_take, List.map_drop]
    rw [List.flatMap_congr hpage, flatMap_range_take_drop, present_unpaged]
  refine ⟨hpages, fun hlength => ?_, rfl⟩
  obtain ⟨count, hcount, hbefore⟩ :=
    exists_page_count (shape.unpaged.present arranged).length hsize
  have hfit : ∀ k < count, k * size < UInt64.size := fun k hk =>
    lt_of_lt_of_le (hbefore k hk) hlength
  exact ⟨count, hfit, by rw [hpages count hfit, List.take_of_length_le hcount]⟩

end ReadShape

namespace Memory

open ReadShape

/-- **Pages tile the result**, with `size` documents on a page, and this number or its opposite as the
limit, in every collection and by every query, sort document and projection. So they do from whatever
arrangement of the matching documents they are cut, also where the sort document gives no order. -/
theorem find_pages (memory : Memory) (q : Query) (shape : ReadShape) (name : String) {size : ℕ}
    {limit : Int64} (hsize : 1 ≤ size) (hlimit : limit.toInt = size ∨ limit.toInt = -size) :
    Tiles (fun shape => memory.find q shape name) shape limit size ∧
      ∀ arranged : List Document, Tiles (fun shape => shape.present arranged) shape limit size := by
  refine ⟨?_, tiles_present shape hsize hlimit⟩
  -- the pages and the whole are cut from one arrangement, for they have one sort document
  obtain ⟨hbeginning, hwhole, hnoLimit⟩ :=
    tiles_present shape hsize hlimit (shape.arrange ((memory.documents name).filter q.accepts))
  exact ⟨hbeginning, hwhole, hnoLimit⟩

/-- Three ranked players on two pages, in the order of their ranks from above. -/
theorem find_pages_ranked :
    let player (id rank : Int32) : Document := [("_id", .int32 id), ("rank", .int32 rank)]
    let memory : Memory := { collections := [("players", [player 1 2, player 2 3, player 3 1])] }
    let shape : ReadShape := { sort := some [("rank", .int32 (-1))] }
    (-2 : Int64).toInt = -(2 : ℕ) ∧
      (List.range 2).flatMap (fun k => memory.find .empty (shape.paged (-2) 2 k) "players") =
        [player 2 3, player 1 2, player 3 1] := by
  intro player memory shape
  have hlimit : (-2 : Int64).toInt = -(2 : ℕ) := by decide
  have hpages :=
    (find_pages memory .empty shape "players" (by decide) (.inr hlimit)).1.beginning 2 (by decide)
  have hfirst : Document.compareBy [("rank", .int32 (-1))] (player 1 2) (player 2 3) = .gt := rfl
  have hmiddle : Document.compareBy [("rank", .int32 (-1))] (player 2 3) (player 3 1) = .lt := rfl
  have hlast : Document.compareBy [("rank", .int32 (-1))] (player 1 2) (player 3 1) = .lt := rfl
  have hsorted : sortDocuments [("rank", .int32 (-1))] [player 1 2, player 2 3, player 3 1] =
      [player 2 3, player 1 2, player 3 1] := by
    simp [sortDocuments, List.mergeSort, hfirst, hmiddle, hlast]
  have hwhole : memory.find .empty shape.unpaged "players" =
      sortDocuments [("rank", .int32 (-1))] [player 1 2, player 2 3, player 3 1] :=
    List.map_id _
  rw [hpages, hwhole, hsorted]
  exact ⟨hlimit, rfl⟩

end Memory

end Dossier

import MarketSketch.Proofs.Drawing.Archive
import MarketSketch.Proofs.Text.Blank

/-! The law of saving and loading. It holds of every list of shapes: what is dropped on the way, and
which of several shapes with one id is kept, is said by filter and by the first of equal ids. -/

namespace MarketSketch

namespace Archive

theorem storable_iff {s : Shape} :
    storable s = true ↔ Text.trim s.id ≠ "" ∧ s.geometry.finite = true := by
  unfold storable
  rw [Bool.and_eq_true, Bool.not_eq_true', ← Bool.not_eq_true, Text.isBlankText_iff_trim]

theorem firsts_eq_eraseDupsBy (seen : List String) (shapes : List Shape) :
    firsts seen shapes = (shapes.filter (·.id ∉ seen)).eraseDupsBy (·.id == ·.id) := by
  induction shapes generalizing seen with
  | nil => rfl
  | cons s rest ih =>
    rw [firsts]
    split
    · rename_i hseen
      rw [ih, List.filter_cons_of_neg (by simpa using hseen)]
    · rename_i hnew
      rw [ih, List.filter_cons_of_pos (by simpa using hnew), List.eraseDupsBy_cons,
        List.filter_filter]
      congr 3
      funext t
      by_cases ht : t.id = s.id <;> simp [ht]

/-- Any list of shapes, saved at any time, is loaded without the shapes whose id is blank or whose
geometry is not finite, and with the first of each id; all else is as it was. -/
theorem shapes_encode_eq_eraseDupsBy (shapes : List Shape) (savedAt : Int)
    (htimes : ∀ s ∈ shapes, IsSignedWord s.createdAt) (hsaved : IsSignedWord savedAt) :
    Archive.shapes (encode shapes savedAt) =
      (shapes.filter fun s => Text.trim s.id ≠ "" ∧ s.geometry.finite = true).eraseDupsBy
        (·.id == ·.id) := by
  have hfilter : shapes.filter storable =
      shapes.filter fun s => Text.trim s.id ≠ "" ∧ s.geometry.finite = true := by
    apply List.filter_congr
    intro s _
    rw [Bool.eq_iff_iff, decide_eq_true_iff]
    exact storable_iff
  rw [shapes_encode htimes hsaved, firsts_eq_eraseDupsBy, hfilter]
  simp

theorem shapes_encode_of_mixed :
    let x := Float.ofBits
    let nan := x 0x7FF8000000000000
    let infinite := x 0xFFF0000000000000
    let least := x 1
    let greatest := x 0x7FEFFFFFFFFFFFFF
    let minusZero := x 0x8000000000000000
    let level (id : String) (price : Float) : Shape := ⟨id, 0, none, .level price⟩
    let zone : Shape :=
      ⟨"z\"\\\n\u0001é", -0x8000000000000000, some "", .zone ⟨least, minusZero⟩ ⟨greatest, least⟩⟩
    let line : Shape :=
      ⟨"a", 0x7FFFFFFFFFFFFFFF, some "\u2028😀", .trendline ⟨minusZero, least⟩ ⟨least, greatest⟩⟩
    let all := [level "a" nan, zone, level "\u00A0 \t" least, line, level "a" least,
      ⟨"z", 0, none, .trendline ⟨least, infinite⟩ ⟨least, least⟩⟩]
    (∀ s ∈ all, IsSignedWord s.createdAt) ∧ IsSignedWord (-1) ∧
      Archive.shapes (encode all (-1)) = [zone, line] := by
  intro x nan infinite least greatest minusZero level zone line all
  have htimes : ∀ s ∈ all, IsSignedWord s.createdAt := by
    intro s hs
    simp only [all, List.mem_cons, List.not_mem_nil, or_false] at hs
    rcases hs with rfl | rfl | rfl | rfl | rfl | rfl <;> decide
  have hsaved : IsSignedWord (-1) := by decide
  refine ⟨htimes, hsaved, ?_⟩
  rw [shapes_encode_eq_eraseDupsBy all (-1) htimes hsaved]
  decide +kernel

end Archive

end MarketSketch

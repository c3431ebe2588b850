import MarketSketch.Proofs.Drawing.Sketch

/-! Properties of all shapes of a sketch at once, the stored ones and the one in hand. An operation
keeps such a property if new shapes have it, if moving the end of a draft keeps it, and if the shape
under a drag has it where it is put. The rest only drops shapes and puts old ones back. -/

namespace MarketSketch

namespace Viewport

variable {v : ChartView}

theorem isFinite_of_finite? {x y : Float} (h : finite? x = some y) : y.isFinite = true := by
  unfold finite? at h
  split at h
  · rename_i hfinite
    rw [← Option.some.inj h]
    exact hfinite
  · cases h

theorem isFinite_of_time? {x t : Float} (h : v.time? x = some t) : t.isFinite = true := by
  unfold time? at h
  split at h
  · exact isFinite_of_finite? h
  · cases h

theorem isFinite_of_price? {y p : Float} (h : v.price? y = some p) : p.isFinite = true := by
  unfold price? at h
  split at h
  · exact isFinite_of_finite? h
  · cases h

theorem finite_of_toPoint? {at_ : Pixel} {p : ChartPoint} (h : v.toPoint? at_ = some p) :
    p.finite = true := by
  unfold toPoint? at h
  split at h
  · rename_i time price htime hprice
    have ht : Scalar.finite time = true := isFinite_of_time? htime
    have hp : Scalar.finite price = true := isFinite_of_price? hprice
    rw [← Option.some.inj h, Point.finite, ht, hp]
    rfl
  · cases h

end Viewport

namespace Geometry

theorem finite_anchored (kind : ShapeKind) {p : ChartPoint} (h : p.finite = true) :
    (anchored kind p).finite = true := by
  cases kind with
  | level => exact (Bool.and_eq_true_iff.mp h).2
  | trendline | zone => exact Bool.and_eq_true_iff.mpr ⟨h, h⟩

theorem finite_withEnd {g : ChartGeometry} {p : ChartPoint} (hg : g.finite = true)
    (hp : p.finite = true) : (g.withEnd p).finite = true := by
  cases g with
  | level price => exact (Bool.and_eq_true_iff.mp hp).2
  | trendline a b | zone a b =>
    exact Bool.and_eq_true_iff.mpr ⟨(Bool.and_eq_true_iff.mp hg).1, hp⟩

end Geometry

namespace Store

variable {P : Shape → Prop} {s : Store} {shape t : Shape} {xs : List Shape}

theorem mem_overwritten (h : t ∈ overwritten shape xs) : t = shape ∨ t ∈ xs := by
  induction xs with
  | nil => simp [overwritten] at h
  | cons x xs ih =>
    rw [overwritten] at h
    split at h
    · exact (List.mem_cons.mp h).imp_right (List.mem_cons_of_mem x)
    · rcases List.mem_cons.mp h with rfl | hrest
      · exact .inr List.mem_cons_self
      · exact (ih hrest).imp_right (List.mem_cons_of_mem x)

theorem mem_overwritten_self (h : shape.id ∈ xs.map (·.id)) : shape ∈ overwritten shape xs := by
  induction xs with
  | nil => simp at h
  | cons x xs ih =>
    rw [overwritten]
    split
    · exact List.mem_cons_self
    · rename_i hother
      rcases List.mem_cons.mp h with heq | hrest
      · exact absurd heq.symm hother
      · exact List.mem_cons_of_mem x (ih hrest)

theorem forall_replace (h : ∀ t ∈ s.shapes, P t) (hshape : P shape) :
    ∀ t ∈ (s.replace shape).state.shapes, P t := by
  rw [replace_shapes]
  intro t ht
  rcases mem_overwritten ht with rfl | hold
  · exact hshape
  · exact h t hold

theorem forall_add (h : ∀ t ∈ s.shapes, P t) (hshape : P shape) :
    ∀ t ∈ (s.add shape).state.shapes, P t := by
  unfold add
  split
  · exact h
  · intro t ht
    rcases List.mem_append.mp ht with hold | hnew
    · exact h t hold
    · exact List.mem_singleton.mp hnew ▸ hshape

theorem forall_undo (h : ∀ t ∈ s.shapes, P t) : ∀ t ∈ s.undo.state.shapes, P t := by
  rw [undo_shapes]
  exact fun t ht => h t (List.dropLast_subset _ ht)

end Store

def Gesture.shape? : Gesture → Option Shape
  | .idle => none
  | .drawing _ draft => some draft
  | .dragging _ _ snapshot => some snapshot

namespace Sketch

variable {P : Shape → Prop} {s t : Sketch} {m : Moment} {v : ChartView} {at_ : Pixel}

structure Everywhere (P : Shape → Prop) (s : Sketch) : Prop where
  stored : ∀ t ∈ s.store.shapes, P t
  inHand : ∀ t, s.gesture.shape? = some t → P t

theorem Everywhere.of_idle (h : ∀ t ∈ s.store.shapes, P t) (hidle : s.gesture = .idle) :
    s.Everywhere P := ⟨h, by simp [hidle, Gesture.shape?]⟩

theorem Everywhere.of_same (h : s.Everywhere P) (hg : t.gesture = s.gesture)
    (hs : t.store = s.store) : t.Everywhere P :=
  ⟨hs ▸ h.stored, hg ▸ h.inHand⟩

theorem Everywhere.draft (h : s.Everywhere P) {anchor : ChartPoint} {draft : Shape}
    (hg : s.gesture = .drawing anchor draft) : P draft := h.inHand draft (by rw [hg]; rfl)

theorem Everywhere.snapshot (h : s.Everywhere P) {id : String} {anchor : ChartPoint}
    {snapshot : Shape} (hg : s.gesture = .dragging id anchor snapshot) : P snapshot :=
  h.inHand snapshot (by rw [hg]; rfl)

theorem Everywhere.cancel (h : s.Everywhere P) : s.cancel.state.Everywhere P := by
  refine .of_idle ?_ (cancel_gesture s)
  unfold Sketch.cancel
  cases hg : s.gesture with
  | idle => exact h.stored
  | drawing anchor draft => exact h.stored
  | dragging id anchor snapshot => exact Store.forall_replace h.stored (h.snapshot hg)

theorem Everywhere.setTool (h : s.Everywhere P) (tool : Tool) :
    (s.setTool tool).state.Everywhere P := h.cancel.of_same rfl rfl

theorem Everywhere.pruned (h : s.Everywhere P) : s.pruned.Everywhere P :=
  h.of_same (pruned_gesture s) (pruned_store s)

theorem Everywhere.undo (h : s.Everywhere P) : s.undo.state.Everywhere P := by
  have hcancel := h.cancel
  exact Everywhere.pruned ⟨Store.forall_undo hcancel.stored, hcancel.inHand⟩

theorem everywhere_clear (P : Shape → Prop) (s : Sketch) : s.clear.state.Everywhere P := by
  refine Everywhere.pruned (.of_idle ?_ (cancel_gesture s))
  exact fun t ht => absurd ht List.not_mem_nil

theorem Everywhere.select (h : s.Everywhere P) (id : String) :
    (s.select id).state.Everywhere P := h.of_same (s.select_kept id).1 (s.select_kept id).2

theorem Everywhere.pointerDown (h : s.Everywhere P)
    (hnew : ∀ g : ChartGeometry, g.finite = true → P (newShape m g)) (v : ChartView) (at_ : Pixel) :
    (s.pointerDown m v at_).state.Everywhere P := by
  rcases s.pointerDown_cases m v at_ with
    heq | ⟨hidle, p, hp, heq | ⟨kind, _, _, heq⟩ | ⟨_, heq⟩⟩ <;> rw [heq]
  · exact h
  · have hprice := (Bool.and_eq_true_iff.mp (Viewport.finite_of_toPoint? hp)).2
    exact ⟨Store.forall_add h.stored (hnew (.level p.price) hprice), h.inHand⟩
  · refine ⟨h.stored, fun t ht => ?_⟩
    rw [← Option.some.inj ht]
    exact hnew _ (Geometry.finite_anchored kind (Viewport.finite_of_toPoint? hp))
  · rcases s.grab_cases v at_ p with ⟨shape, hmem, _, hgrab⟩ | hgrab <;> rw [hgrab]
    · exact ⟨h.stored, fun t ht => Option.some.inj ht ▸ h.stored shape hmem⟩
    · exact ⟨h.stored, h.inHand⟩

/-- The shape under a drag has the property where this point puts it. -/
def Carries (P : Shape → Prop) (s : Sketch) (p : ChartPoint) : Prop :=
  ∀ id anchor snapshot, s.gesture = .dragging id anchor snapshot →
    P (snapshot.translated (p.time - anchor.time) (p.price - anchor.price))

theorem Everywhere.track (h : s.Everywhere P)
    (hend : ∀ (t : Shape) (p : ChartPoint), P t → p.finite = true → P (t.withEnd p))
    {p : ChartPoint} (hp : p.finite = true) (hcarries : s.Carries P p) :
    (s.track p).state.Everywhere P := by
  unfold Sketch.track
  cases hg : s.gesture with
  | idle => exact h
  | drawing anchor draft =>
    refine ⟨h.stored, fun t ht => ?_⟩
    rw [← Option.some.inj ht]
    exact hend draft p (h.draft hg) hp
  | dragging id anchor snapshot =>
    refine ⟨Store.forall_replace h.stored (hcarries id anchor snapshot hg), fun t ht => ?_⟩
    exact Option.some.inj ht ▸ h.snapshot hg

theorem Everywhere.pointerMove (h : s.Everywhere P)
    (hend : ∀ (t : Shape) (p : ChartPoint), P t → p.finite = true → P (t.withEnd p))
    (hcarries : ∀ p, v.toPoint? at_ = some p → s.Carries P p) :
    (s.pointerMove v at_).state.Everywhere P := by
  rcases s.pointerMove_cases v at_ with heq | ⟨_, p, hp, heq⟩ <;> rw [heq]
  · exact h
  · exact h.track hend (Viewport.finite_of_toPoint? hp) (hcarries p hp)

theorem Everywhere.release (h : s.Everywhere P) : s.release.state.Everywhere P := by
  unfold Sketch.release
  cases hg : s.gesture with
  | idle => exact h
  | drawing anchor draft =>
    exact .of_idle (Store.forall_add h.stored (h.draft hg)) rfl
  | dragging id anchor snapshot => exact .of_idle h.stored rfl

theorem Everywhere.pointerUp (h : s.Everywhere P)
    (hend : ∀ (t : Shape) (p : ChartPoint), P t → p.finite = true → P (t.withEnd p))
    (hcarries : ∀ p, v.toPoint? at_ = some p → s.Carries P p) :
    (s.pointerUp v at_).state.Everywhere P := by
  rcases s.pointerUp_eq v at_ with heq | ⟨p, hp, heq⟩ <;> rw [heq]
  · exact h.release
  · exact (h.track hend (Viewport.finite_of_toPoint? hp) (hcarries p hp)).release

end Sketch

end MarketSketch

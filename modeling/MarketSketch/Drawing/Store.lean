import MarketSketch.Turn

/-!
The user's shapes in order of creation. Every change asks for one write of the whole list; the list
in memory is what counts, whether or not the write succeeds.
-/

namespace MarketSketch

structure Store where
  shapes : List Shape := []
  key? : Option String := none
deriving DecidableEq

namespace Store

def loaded (stored : Except Failure (Option String)) : List Shape × List Log.Note :=
  match stored with
  | .ok (some text) => (Archive.shapes text, Archive.notes text)
  | .ok none => ([], [])
  | .error f =>
    ([], [⟨.warn, .domain, "Persistence", "reading stored drawings failed: " ++ f.message⟩])

def opened (key : String) (stored : Except Failure (Option String)) : Turn Store Unit :=
  let (shapes, notes) := loaded stored
  ⟨⟨shapes, some key⟩, (), notes.map .note⟩

def get? (s : Store) (id : String) : Option Shape := s.shapes.find? (·.id = id)

def contains (s : Store) (id : String) : Bool := s.shapes.any (·.id = id)

def saving (s : Store) : List Effect :=
  match s.key? with
  | some key => [.write key s.shapes]
  | none => []

def changed {ρ : Type} (s : Store) (reply : ρ) : Turn Store ρ := ⟨s, reply, s.saving⟩

def add (s : Store) (shape : Shape) : Turn Store Bool :=
  if s.contains shape.id then ⟨s, false, []⟩
  else changed { s with shapes := s.shapes ++ [shape] } true

/-- Puts a shape in the place of the first one with its id. -/
def overwritten (shape : Shape) : List Shape → List Shape
  | [] => []
  | t :: rest => if t.id = shape.id then shape :: rest else t :: overwritten shape rest

def replace (s : Store) (shape : Shape) : Turn Store Bool :=
  if s.contains shape.id then changed { s with shapes := overwritten shape s.shapes } true
  else ⟨s, false, []⟩

def undo (s : Store) : Turn Store (Option Shape) :=
  match s.shapes.getLast? with
  | some removed => changed { s with shapes := s.shapes.dropLast } (some removed)
  | none => ⟨s, none, []⟩

def clear (s : Store) : Turn Store Unit := changed { s with shapes := [] } ()

end Store

end MarketSketch

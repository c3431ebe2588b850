import MarketSketch.Turn
import MarketSketch.Text.Blank

/-!
The token of a request: the first of several places that holds one that is not blank.
-/

namespace MarketSketch

structure TokenReading where
  place : String
  text? : Option String
deriving DecidableEq, Repr

namespace TokenReading

def stored (place : String) (v : Vault) (key : String) : TokenReading :=
  ⟨place, (v.read key).toOption.join⟩

def token? (r : TokenReading) : Option String :=
  (r.text?.map Text.trim).filter fun t => !t.isEmpty

end TokenReading

def firstToken? (readings : List TokenReading) : Option (String × String) :=
  readings.findSome? fun r => r.token?.map (r.place, ·)

def chooseToken (readings : List TokenReading) : Option String × List Log.Note :=
  match firstToken? readings with
  | some (place, token) =>
    (some token, [⟨.debug, .infrastructure, "Auth", "token taken from " ++ place⟩])
  | none => (none, [])

end MarketSketch

/-
A pool gives out identifiers from a source and never the same one twice. An identifier that was
chosen elsewhere can be reserved and is then never given out.
-/
import SlideFlow.Ident.Raw

namespace SlideFlow.Ident

/-- A source and the identifiers that were given out or reserved, newest first. -/
structure Pool (σ : Type) where
  source : σ
  taken : List String

namespace Pool

variable {σ : Type} [Source σ]

def ofSource (source : σ) : Pool σ := { source, taken := [] }

/-- Draws that are made for one identifier before the pool gives up. -/
def attempts : Nat := 1000000

/-- Draws until an identifier comes that is not taken. -/
def search (taken : List String) : Nat → σ → Option (String × σ)
  | 0, _ => none
  | fuel + 1, s => do
    let (raw, s) ← Source.draw s
    if raw.text ∈ taken then search taken fuel s else some (raw.text, s)

/-- Gives out the next identifier of the source that is not taken, if it comes within a number of
draws. -/
def nextWithin (limit : Nat) (p : Pool σ) : Option (String × Pool σ) := do
  let (id, source) ← search p.taken limit p.source
  some (id, { source, taken := id :: p.taken })

/-- Gives out the next identifier of the source that is not taken. -/
def next (p : Pool σ) : Option (String × Pool σ) := p.nextWithin attempts

/-- Takes an identifier out of the game. -/
def reserve (p : Pool σ) (id : String) : Pool σ :=
  if id ∈ p.taken then p else { p with taken := id :: p.taken }

/-- Gives out several identifiers, in order. -/
def nexts : Nat → Pool σ → Option (List String × Pool σ)
  | 0, p => some ([], p)
  | n + 1, p => do
    let (id, p) ← p.next
    let (ids, p) ← nexts n p
    some (id :: ids, p)

/-- The pool of a seed. -/
def ofSeed (seed : Int) : Pool Twister := ofSource (Twister.ofSeed seed)

end Pool

end SlideFlow.Ident

import RunnelMoe.SimModel

/-! The frequency sketch of the admission filter. A first access only sets a page's
door bits; later ones raise the smallest of its counters. After a fixed number of
accesses the counters are halved and the door is cleared. -/
namespace RunnelMoe.Sim
open Words

def sketchCounterMax : Nat := 15

def hashSeeds : List UInt64 :=
  [0x243f6a8885a308d3,0x13198a2e03707344,0xa4093822299f31d0,0x082efa98ec4e6c89,
    0x452821e638d01377,0xbe5466cf34e90c6c,0xc0ac29b7c97c50dd,0x3f84d5b5b5470917]

structure TinyLfu where
  depth : Nat
  width : Nat
  counters : List Nat
  doorkeeper : List Nat
  sampleAccesses : Nat
  observed : Nat
  deriving DecidableEq, Repr

namespace TinyLfu

def new (config : TinyLfuConfig) : Except SimError TinyLfu :=
  if config.sketchDepth < 1 ∨ config.sketchDepth > hashSeeds.length then
    .error (.invalidConfig "TinyLFU sketch_depth must be between 1 and 8")
  else if config.sketchWidth < 64 ∨ config.sketchWidth > 65536 then
    .error (.invalidConfig "TinyLFU sketch_width must be between 64 and 65536")
  else if config.sampleAccesses = 0 then .error (.invalidConfig "TinyLFU sample_accesses must be positive")
  else do
    let counterLen ← okOr (.invalidConfig "TinyLFU sketch allocation overflows")
      (checkedMul config.sketchDepth config.sketchWidth)
    let doorLen ← okOr (.invalidConfig "TinyLFU doorkeeper allocation overflows") (checkedAdd config.sketchWidth 7)
    .ok ⟨config.sketchDepth,config.sketchWidth,List.replicate counterLen 0,List.replicate (doorLen / 8) 0,
      config.sampleAccesses,0⟩

def splitmix (value : UInt64) : UInt64 :=
  let value := value + 0x9e3779b97f4a7c15
  let value := (value ^^^ (value >>> 30)) * 0xbf58476d1ce4e5b9
  let value := (value ^^^ (value >>> 27)) * 0x94d049bb133111eb
  value ^^^ (value >>> 31)

def column (tiny : TinyLfu) (page : PageId) (row : Nat) : Nat :=
  (splitmix (UInt64.ofNat page ^^^ hashSeeds.getD row 0)).toNat % tiny.width

def doorContains (tiny : TinyLfu) (page : PageId) : Bool :=
  (List.range tiny.depth).all (fun row =>
    let column := tiny.column page row
    (tiny.doorkeeper.getD (column / 8) 0).testBit (column % 8))

def setDoor (tiny : TinyLfu) (page : PageId) : TinyLfu :=
  {tiny with doorkeeper := (List.range tiny.depth).foldl (fun doorkeeper row =>
    let column := tiny.column page row
    doorkeeper.set (column / 8) (doorkeeper.getD (column / 8) 0 ||| 1 <<< (column % 8))) tiny.doorkeeper}

def minimum (tiny : TinyLfu) (page : PageId) : Nat :=
  ((List.range tiny.depth).map (fun row =>
    tiny.counters.getD (row * tiny.width + tiny.column page row) 0)).min?.getD 0

def estimate (tiny : TinyLfu) (page : PageId) : Nat :=
  tiny.minimum page + (if tiny.doorContains page then 1 else 0)

-- Counters are bytes, so the increment saturates before it is cut to the maximum.
def raise (tiny : TinyLfu) (page : PageId) : TinyLfu :=
  let minimum := tiny.minimum page
  {tiny with counters := (List.range tiny.depth).foldl (fun counters row =>
    let index := row * tiny.width + tiny.column page row
    if counters.getD index 0 = minimum then
      counters.set index (min (min (counters.getD index 0 + 1) 255) sketchCounterMax)
    else counters) tiny.counters}

def age (tiny : TinyLfu) : TinyLfu :=
  {tiny with
    counters := tiny.counters.map (· / 2), doorkeeper := tiny.doorkeeper.map (fun _ => 0),
    observed := tiny.observed / 2}

def observe (tiny : TinyLfu) (page : PageId) : TinyLfu :=
  let counted := if tiny.doorContains page then tiny.raise page else tiny.setDoor page
  let tiny := {counted with observed := wrappingAdd counted.observed 1}
  if tiny.observed ≥ tiny.sampleAccesses then tiny.age else tiny

def metadataBytes (tiny : TinyLfu) : Nat := tiny.counters.length + tiny.doorkeeper.length

end TinyLfu

end RunnelMoe.Sim

import Mathlib.Data.Prod.Lex
import Mathlib.Tactic.Common
import RunnelMoe.KeyedSum
import RunnelMoe.Words

/-! The closed data model of the cache simulator: page catalog, event stream, limits
and policy settings, and the errors the replay can end in. -/
namespace RunnelMoe.Sim
open Words KeyedSum
open Std (ExtTreeMap)

def traceSchema : String := "runnel.cache-trace/1"
def prefetchModel : String := "instant-between-events-v1"
def resultSchema : String := "runnel.cache-result/1"

-- Reading and parsing of the trace file have errors of their own, which no replay returns.
inductive SimError where
  | invalidTrace (problem : String)
  | invalidConfig (problem : String)
  | counterOverflow (counter : String)
  | unsupportedOracleGeometry (problem : String)
  | exactOracleLimit (problem : String)
  deriving DecidableEq, Repr

def okOr {A : Type} (error : SimError) : Option A → Except SimError A
  | none => .error error
  | some value => .ok value

theorem okOrSome {A : Type} {error : SimError} {x : Option A} {a : A} : okOr error x = .ok a ↔ x = some a := by
  cases x with
  | none => exact ⟨nofun,nofun⟩
  | some b => simp only [okOr,Except.ok.injEq,Option.some.injEq]

abbrev PageId := Nat

inductive PageClass where
  | shared
  | expert (layer expert ordinal : Nat)
  deriving DecidableEq, Repr

structure PageDescriptor where
  id : PageId
  logicalBytes : Nat
  chargeBytes : Nat
  role : PageClass
  deriving DecidableEq, Repr

structure ExpertPrediction where
  expert : Nat
  scorePpm : Nat
  deriving DecidableEq, Repr

inductive TraceEvent where
  | routerSignal (sequence request targetStep layer : Nat) (predictions : List ExpertPrediction)
  | demand (sequence request step : Nat) (page : PageId)
  deriving DecidableEq, Repr

def TraceEvent.sequence : TraceEvent → Nat
  | .routerSignal sequence _ _ _ _ | .demand sequence _ _ _ => sequence

def TraceEvent.page? : TraceEvent → Option PageId
  | .demand _ _ _ page => some page
  | .routerSignal _ _ _ _ _ => none

structure TraceHeader where
  kind : String
  schema : String
  traceId : String
  pageCount : Nat
  eventCount : Nat
  chargeQuantum : Nat
  prefetchModel : String
  deriving DecidableEq, Repr

structure ExpertKey where
  layer : Nat
  expert : Nat
  deriving DecidableEq, Repr

instance expertKeyOrder : LinearOrder ExpertKey :=
  LinearOrder.lift' (fun k => toLex (k.layer,k.expert)) (by
    intro a b same
    cases a; cases b
    simp only [EmbeddingLike.apply_eq_iff_eq,Prod.mk.injEq] at same
    simp [same.1,same.2])

instance expertTransOrd : Std.TransOrd ExpertKey := inferInstance

/- The catalog as the online policies see it. A lookup of an identifier that is not in
the catalog panics in the source; a validated trace never asks for one. -/
structure PageCatalog where
  pages : List PageDescriptor
  pageIndex : ExtTreeMap PageId Nat
  expertPages : ExtTreeMap ExpertKey (List PageId)

def PageDescriptor.unknown (id : PageId) : PageDescriptor := ⟨id,0,0,.shared⟩

def PageCatalog.page (catalog : PageCatalog) (id : PageId) : PageDescriptor :=
  match catalog.pageIndex[id]? with
  | none => .unknown id
  | some index => catalog.pages.getD index (.unknown id)

def PageCatalog.groupPages (catalog : PageCatalog) (layer expert : Nat) : List PageId :=
  catalog.expertPages[(⟨layer,expert⟩ : ExpertKey)]?.getD []

structure SimLimits where
  maxTraceBytes : Nat
  maxLineBytes : Nat
  maxPages : Nat
  maxEvents : Nat
  maxPredictionsPerSignal : Nat
  maxExactOracleStates : Nat
  deriving DecidableEq, Repr

def defaultLimits : SimLimits := ⟨5 * 1024 * 1024,16 * 1024,4096,100000,16,1000000⟩

structure TinyLfuConfig where
  sketchDepth : Nat
  sketchWidth : Nat
  sampleAccesses : Nat
  deriving DecidableEq, Repr

structure RouterPolicyConfig where
  protectedFractionPpm : Nat
  minimumScorePpm : Nat
  maxExpertsPerSignal : Nat
  maxPagesPerSignal : Nat
  maxPrefetchBytesPerSignal : Nat
  deriving DecidableEq, Repr

inductive PolicySpec where
  | noCache
  | lru
  | slru (protectedFractionPpm : Nat)
  | tinyLfu (config : TinyLfuConfig)
  | routerAdmit (config : RouterPolicyConfig)
  | routerPrefetch (config : RouterPolicyConfig)
  | belady
  deriving DecidableEq, Repr

def PolicySpec.name : PolicySpec → String
  | .noCache => "no-cache"
  | .lru => "lru"
  | .slru _ => "slru"
  | .tinyLfu _ => "tiny-lfu"
  | .routerAdmit _ => "router-admit"
  | .routerPrefetch _ => "router-prefetch"
  | .belady => "belady"

structure SimulationConfig where
  capacityBytes : Nat
  policy : PolicySpec
  deriving DecidableEq, Repr

end RunnelMoe.Sim

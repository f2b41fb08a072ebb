import Boundary.Types.Registrar
import Boundary.Go.Maps
import Boundary.Go.Control

/-!
# Rate-limit configuration

`Configs.Limits` turns the ordered rate-limit configs into one limit for every
resource, action and `per` the controller serves. It first writes a default
limit for every registered action of every resource but `unknown`, `*` and the
controller, then lets each config overwrite the limits it names. The limits are
kept in a Go map keyed by `resource:action:per`; the result lists its values.

The order in which Go ranges over `resource.Map` is a parameter (`mapOrder`);
the map of limits is an association list, whose values are listed in its own
order where Go's is unspecified.
-/

namespace Boundary.RateLimit

open GoControl

/-- `rate.LimitPerTotal`. -/
def limitPerTotal : String := "total"

/-- `rate.LimitPerIPAddress`. -/
def limitPerIPAddress : String := "ip-address"

/-- `rate.LimitPerAuthToken`. -/
def limitPerAuthToken : String := "auth-token"

/-- `ratelimit.Config`, with `Period` already parsed from `PeriodHCL` (a
`time.Duration`, in nanoseconds). -/
structure Config where
  resources : List String
  actions : List String
  per : String
  limit : Int
  period : Int
  unlimited : Bool

/-- `ratelimit.Configs`, in their order. -/
abbrev Configs := List Config

/-- The two kinds of `rate.Limit` that `Limits` builds. -/
inductive Limit where
  | limited (resource action per : String) (maxRequests : Nat) (period : Int)
  | unlimited (resource action per : String)
  deriving DecidableEq, Repr

/-- The resource, action and per a limit is for. -/
def Limit.fields : Limit → String × String × String
  | .limited resource action per _ _ => (resource, action, per)
  | .unlimited resource action per => (resource, action, per)

/-- `uint64(n)` of a Go `int`. -/
def toUint64 (n : Int) : Nat := (n % 2 ^ 64).toNat

/-- `DefaultInTotalRequestLimit`. -/
def defaultInTotalRequestLimit : Nat := 30000

/-- `DefaultIpAddressRequestLimit`. -/
def defaultIpAddressRequestLimit : Nat := 30000

/-- `DefaultAuthTokenRequestLimit`. -/
def defaultAuthTokenRequestLimit : Nat := 3000

/-- `DefaultPeriod`: thirty seconds. -/
def defaultPeriod : Int := 30 * 1000000000

/-- `DefaultInTotalListRequestLimit`. -/
def defaultInTotalListRequestLimit : Nat := 1500

/-- `DefaultIpAddressListRequestLimit`. -/
def defaultIpAddressListRequestLimit : Nat := 1500

/-- `DefaultAuthTokenListRequestLimit`. -/
def defaultAuthTokenListRequestLimit : Nat := 150

/-- `DefaultListPeriod`: thirty seconds. -/
def defaultListPeriod : Int := 30 * 1000000000

/-- The key `fmt.Sprintf("%s:%s:%s", res.String(), a.String(), per)`. -/
def limitKey (res : ResourceType) (a : ActionType) (per : String) : String :=
  res.toString ++ ":" ++ a.toString ++ ":" ++ per

/-- The map `defaults` of `Limits`. -/
abbrev LimitMap := AList fun _ : String => Limit

/-- The pers of the three limits written for each resource and action, in the
order `Limits` writes them. -/
def limitPers : List String := [limitPerTotal, limitPerAuthToken, limitPerIPAddress]

/-- The default limit of a resource, action and per: the list limits for
`list`, the others for any other action. -/
def defaultLimit (res : ResourceType) (a : ActionType) (per : String) : Limit :=
  if a = .list then
    .limited res.toString a.toString per
      (if per = limitPerTotal then defaultInTotalListRequestLimit
        else if per = limitPerAuthToken then defaultAuthTokenListRequestLimit
        else defaultIpAddressListRequestLimit) defaultListPeriod
  else
    .limited res.toString a.toString per
      (if per = limitPerTotal then defaultInTotalRequestLimit
        else if per = limitPerAuthToken then defaultAuthTokenRequestLimit
        else defaultIpAddressRequestLimit) defaultPeriod

/-- `allResources`: the resources of `resource.Map`, in the order Go ranges over
it, but `unknown`, `*` and the controller. -/
def allResources (mapOrder : List ResourceType) : List ResourceType :=
  mapOrder.filter fun res => res ≠ .unknown ∧ res ≠ .all ∧ res ≠ .controller

/-- The three defaults of one action of a resource. -/
def writeDefaults (res : ResourceType) (m : LimitMap) (a : ActionType) : LimitMap :=
  limitPers.foldl (fun m per => m.insert (limitKey res a per) (defaultLimit res a per)) m

/-- One resource of the first loop of `Limits`: the defaults of each of its
actions. A resource without registered actions panics. -/
def defaultsStep (reg : Registry) (m : LimitMap) (res : ResourceType) : Except Error LimitMap :=
  match actionSetForResource reg res with
  | .ok validActions => .ok (validActions.foldl (writeDefaults res) m)
  | .error _ =>
    .error (.runtimeError ("No actions registered for resource " ++ Strings.quote res.toString))

/-- The limit a config sets for a resource and an action. -/
def configLimit (cc : Config) (res : ResourceType) (a : ActionType) : Limit :=
  if cc.unlimited then .unlimited res.toString a.toString cc.per
  else .limited res.toString a.toString cc.per (toUint64 cc.limit) cc.period

/-- `resource.Map[r]` of a resource a config names, an error for a name that is
not a key of the map. -/
def lookupResource (r : String) : Except Error ResourceType :=
  match ResourceType.mapLookup r with
  | some rr => .ok rr
  | none => .error (.new .invalidConfiguration ("unknown resource " ++ r))

/-- The resources of a config: all of them for the single name `*`, else each
name looked up in `resource.Map`. -/
def resourceSet (allResources : List ResourceType) (cc : Config) :
    Except Error (List ResourceType) :=
  if cc.resources = [ResourceType.all.toString] then .ok allResources
  else cc.resources.mapM lookupResource

/-- One resource of a config whose actions are the single name `*`: the
config's limit for every valid action. -/
def allActionsStep (reg : Registry) (cc : Config) (m : LimitMap) (res : ResourceType) :
    Except Error LimitMap :=
  (actionSetForResource reg res).map fun validActions =>
    validActions.foldl (fun m a => m.insert (limitKey res a cc.per) (configLimit cc res a)) m

/-- `validActionMap[aStr]`. -/
def validActionLookup (validActions : List ActionType) (aStr : String) : Option ActionType :=
  validActions.find? fun a => a.toString == aStr

/-- One named action of a config on one of its resources. -/
def namedAction (cc : Config) (res : ResourceType) (validActions : List ActionType)
    (m : LimitMap) (aStr : String) : Except Error LimitMap :=
  match validActionLookup validActions aStr with
  | some a => .ok (m.insert (limitKey res a cc.per) (configLimit cc res a))
  | none => .error (.new .invalidConfiguration
      ("action " ++ aStr ++ " not valid for resource " ++ res.toString))

/-- One resource of a config that names its actions. -/
def namedActionsStep (reg : Registry) (cc : Config) (m : LimitMap) (res : ResourceType) :
    Except Error LimitMap :=
  actionSetForResource reg res >>= fun validActions =>
    cc.actions.foldlM (namedAction cc res validActions) m

/-- One config of the second loop of `Limits`. -/
def configStep (reg : Registry) (allResources : List ResourceType) (m : LimitMap) (cc : Config) :
    Except Error LimitMap :=
  resourceSet allResources cc >>= fun resourceSet =>
    if cc.actions = [ActionType.all.toString] then resourceSet.foldlM (allActionsStep reg cc) m
    else resourceSet.foldlM (namedActionsStep reg cc) m

/-- `Configs.Limits`. -/
def limits (reg : Registry) (mapOrder : List ResourceType) (c : Configs) :
    Except Error (List Limit) :=
  (allResources mapOrder).foldlM (defaultsStep reg) ∅ >>= fun defaults =>
  c.foldlM (configStep reg (allResources mapOrder)) defaults >>= fun defaults =>
  pure (defaults.entries.map Sigma.snd)

end Boundary.RateLimit

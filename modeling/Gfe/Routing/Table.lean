import Gfe.Config.Types
import Gfe.Lib.HashMap
import Gfe.Lib.Ranking

/-! # The compiled route table

Routes are bucketed by listener, then by host: exact hosts in a map, `*.suffix`
patterns in a list ordered longest first, `*` in a bucket of its own. Every
bucket is ordered longest path prefix first, and a request walks the buckets
from the most to the least specific.
-/

namespace Gfe

/-- `*` matches any host, `*.suffix` one extra label, anything else itself
    whatever its case. -/
def hostMatches (pattern host : Str) : Bool :=
  if pattern == ['*'] then true
  else
    match (Text.stripStart pattern ['*']).filter (Text.startsWith · ['.']) with
    | some suffix =>
      -- the suffix keeps its leading dot
      match Text.stripEnd host suffix with
      | some label => !label.isEmpty && !label.contains '.'
      | none => false
    | none => Text.eqIgnoreAsciiCase pattern host

/-- A path prefix ends at a segment boundary, unless it ends in `/` itself. -/
def pathPrefixMatches (pathPrefix path : Str) : Bool :=
  if pathPrefix == ['/'] || pathPrefix.isEmpty then true
  else
    match Text.stripStart path pathPrefix with
    | some rest => rest.isEmpty || Text.startsWith rest ['/'] || Text.endsWith pathPrefix ['/']
    | none => false

structure CompiledRoute where
  id : RouteId
  /-- The configured pattern, trimmed, in the case it was written in. -/
  host : Str
  pathPrefix : Str
  action : RouteAction
  deriving DecidableEq, Repr

def CompiledRoute.ofRoute (route : Route) : CompiledRoute where
  id := route.id
  host := Text.trim route.host
  pathPrefix := route.pathPrefix
  action := route.action

structure HostRoutes where
  routes : List CompiledRoute
  deriving DecidableEq

namespace HostRoutes

def empty : HostRoutes := ⟨[]⟩

def push (hr : HostRoutes) (route : CompiledRoute) : HostRoutes := ⟨hr.routes ++ [route]⟩

/-- `sort_routes`: stable, longest path prefix first. -/
def sortRoutes (hr : HostRoutes) : HostRoutes :=
  ⟨Ranking.sortDescending (fun route => Text.len route.pathPrefix) hr.routes⟩

def matchPath (hr : HostRoutes) (path : Str) : Option CompiledRoute :=
  hr.routes.find? fun route => pathPrefixMatches route.pathPrefix path

end HostRoutes

structure ListenerRoutes where
  exactHosts : HashMap Str HostRoutes
  wildcardHosts : List (Str × HostRoutes)
  anyHost : HostRoutes

namespace ListenerRoutes

def empty : ListenerRoutes := ⟨∅, [], .empty⟩

def matchRequest (lr : ListenerRoutes) (host path : Str) : Option CompiledRoute :=
  let hostLc := if host.any Char.isUpper then Text.toAsciiLowercase host else host
  match (lr.exactHosts.lookup hostLc).bind (·.matchPath path) with
  | some route => some route
  | none =>
    match lr.wildcardHosts.findSome? fun entry =>
      if hostMatches entry.1 hostLc then entry.2.matchPath path else none with
    | some route => some route
    | none => lr.anyHost.matchPath path

/-- Add a route to the bucket of its wildcard pattern, a new one if it is the
    first of its pattern. -/
def pushWildcard (key : Str) (route : CompiledRoute) :
    List (Str × HostRoutes) → List (Str × HostRoutes)
  | [] => [(key, ⟨[route]⟩)]
  | (pattern, hr) :: rest =>
    if pattern == key then (pattern, hr.push route) :: rest
    else (pattern, hr) :: pushWildcard key route rest

def insertRoute (lr : ListenerRoutes) (route : Route) : ListenerRoutes :=
  let host := Text.trim route.host
  let compiled := CompiledRoute.ofRoute route
  if host == ['*'] then { lr with anyHost := lr.anyHost.push compiled }
  else if Text.startsWith host ['*', '.'] then
    { lr with wildcardHosts := pushWildcard (Text.toAsciiLowercase host) compiled lr.wildcardHosts }
  else
    { lr with exactHosts :=
        lr.exactHosts.update (Text.toAsciiLowercase host) .empty (·.push compiled) }

/-- Every bucket longest prefix first, the wildcards longest pattern first. -/
def order (lr : ListenerRoutes) : ListenerRoutes where
  exactHosts := lr.exactHosts.mapValues HostRoutes.sortRoutes
  wildcardHosts := Ranking.sortDescending (fun entry => Text.len entry.1)
    (lr.wildcardHosts.map fun entry => (entry.1, entry.2.sortRoutes))
  anyHost := lr.anyHost.sortRoutes

end ListenerRoutes

structure RouteTable where
  listeners : HashMap ListenerId ListenerRoutes
  routeCount : Nat

namespace RouteTable

def empty : RouteTable := ⟨∅, 0⟩

def compile (config : DynamicConfig) : RouteTable where
  listeners :=
    (config.routes.foldl (fun (listeners : HashMap ListenerId ListenerRoutes) route =>
      listeners.update route.listener .empty (·.insertRoute route)) ∅).mapValues
      ListenerRoutes.order
  routeCount := config.routes.length

def matchRequest (table : RouteTable) (listener : ListenerId) (host path : Str) :
    Option CompiledRoute :=
  (table.listeners.lookup listener).bind fun lr => lr.matchRequest host path

end RouteTable

end Gfe

import Corouv.Http.Message
import Corouv.Web.Route

/-!
# Routers

`Router` of `web.h`.  Handlers and middlewares are arbitrary functions whose coroutines run in
some monad.  A mounted router is the one it is when the request arrives; in the source the
mount shares its state.

A stack of mounts over one route behaves as one flat route whose handler sees the target
without the segments of the mounts.
-/

namespace Corouv.Web

open Http (Request Response reasonPhrase setHeader)

structure RequestContext where
  request : Request
  params : Params := []

section Types

variable (m : Type → Type)

abbrev Handler := RequestContext → m Response

abbrev Middleware := RequestContext → Handler m → m Response

structure Route where
  method : Option Bytes
  path : Bytes
  handler : Handler m
  isPrefix : Bool := false
  stripPrefix : Bool := false

structure Router where
  routes : List (Route m) := []
  middlewares : List (Middleware m) := []
  notFound : Option (Handler m) := none

end Types

variable {m : Type → Type}

/-- The context a route hands to its handler. -/
def Route.enter (route : Route m) (ctx : RequestContext) (found : MatchResult) : RequestContext :=
  { request :=
      { ctx.request with
        target :=
          if route.stripPrefix then stripMatchedPrefix ctx.request.target found.matchedSegments
          else ctx.request.target }
    params := appendParams ctx.params found.params }

namespace Router

variable [Monad m]

def addAllowedMethod (allowed : List Bytes) (method : Bytes) : List Bytes :=
  if allowed.any fun existing => iequals existing method then allowed else allowed ++ [method]

/-- The answer if no route took the request. -/
def unrouted (router : Router m) (ctx : RequestContext) (allowed : List Bytes) : m Response :=
  if allowed ≠ [] then
    pure { status := 405, reason := reasonPhrase 405, body := ascii "method not allowed",
           keepAlive := false,
           headers := setHeader [] (ascii "Allow") ((ascii ", ").intercalate allowed) }
  else
    match router.notFound with
    | some handler => handler ctx
    | none =>
        pure { status := 404, reason := reasonPhrase 404, body := ascii "not found",
               keepAlive := false }

/-- The loop of `dispatch` over the routes. -/
def dispatchRoutes (router : Router m) (ctx : RequestContext) :
    List (Route m) → List Bytes → m Response
  | [], allowed => router.unrouted ctx allowed
  | route :: routes, allowed =>
      let found := matchRoute (requestPath ctx.request.target) route.path route.isPrefix
      if !found.matched then dispatchRoutes router ctx routes allowed
      else
        match route.method.filter fun method => !iequals ctx.request.method method with
        | some method => dispatchRoutes router ctx routes (addAllowedMethod allowed method)
        | none => route.handler (route.enter ctx found)

def dispatch (router : Router m) (ctx : RequestContext) : m Response :=
  router.dispatchRoutes ctx router.routes []

/-- The first middleware is the outermost one. -/
def handleContext (router : Router m) (ctx : RequestContext) : m Response :=
  router.middlewares.foldr (fun middleware next inner => middleware inner next) router.dispatch ctx

def handle (router : Router m) (request : Request) : m Response :=
  router.handleContext { request := request }

def addRoute (router : Router m) (route : Route m) : Router m :=
  { router with routes := router.routes ++ [route] }

def route (router : Router m) (method : Option Bytes) (path : Bytes) (handler : Handler m)
    (isPrefix : Bool) : Router m :=
  router.addRoute { method, path, handler, isPrefix }

def mount (router : Router m) (path : Bytes) (mounted : Router m) : Router m :=
  router.addRoute
    { method := none, path, handler := mounted.handleContext, isPrefix := true,
      stripPrefix := true }

/-- Routers that have nothing but a mount, one inside the other. -/
def nest : List Bytes → Router m → Router m
  | [], inner => inner
  | path :: mounts, inner => ({} : Router m).mount path (nest mounts inner)

/-- The pattern of the flat route. -/
def flatten : List Bytes → Bytes → Bytes
  | [], pattern => pattern
  | path :: mounts, pattern => path ++ ascii "/" ++ flatten mounts pattern

/-- The target that arrives behind the mounts. -/
def strip (mounts : List Bytes) (ctx : RequestContext) : RequestContext :=
  { ctx with
    request :=
      { ctx.request with
        target := mounts.foldl
          (fun target path => stripMatchedPrefix target (splitPathSegments path).length)
          ctx.request.target } }

/-- A router with one route and nothing else. -/
theorem handleContext_single (route : Route m) (ctx : RequestContext) :
    ({ routes := [route] } : Router m).handleContext ctx =
      let found := matchRoute (requestPath ctx.request.target) route.path route.isPrefix
      if found.matched then
        match route.method.filter fun method => !iequals ctx.request.method method with
        | some method => ({} : Router m).unrouted ctx [method]
        | none => route.handler (route.enter ctx found)
      else ({} : Router m).unrouted ctx [] := by
  change dispatchRoutes _ ctx [_] [] = _
  rw [dispatchRoutes]
  dsimp only
  cases (matchRoute (requestPath ctx.request.target) route.path route.isPrefix).matched with
  | false => rfl
  | true =>
      cases route.method.filter fun method => !iequals ctx.request.method method with
      | none | some method => rfl

/-- Routers mounted in one another answer as one router with the joined pattern does. -/
theorem handleContext_nest {mounts : List Bytes}
    (plain : ∀ path ∈ mounts, wildcard ∉ splitPathSegments path) (method : Option Bytes)
    (pattern : Bytes) (handler : Handler m) (ctx : RequestContext) :
    (nest mounts (({} : Router m).route method pattern handler false)).handleContext ctx =
      (({} : Router m).route method (flatten mounts pattern)
        (fun inner => handler (strip mounts inner)) false).handleContext ctx := by
  induction mounts generalizing ctx with
  | nil => rfl
  | cons path rest ih =>
      have here := plain path List.mem_cons_self
      have later := ih fun other member => plain other (List.mem_cons_of_mem path member)
      have split := matchRoute_append here ctx.request.target (flatten rest pattern)
      simp only [nest, flatten, mount, route, addRoute, List.nil_append, handleContext_single,
        split, Option.filter_none] at later ⊢
      cases outer : (matchRoute (requestPath ctx.request.target) path true).matched with
      | false => rfl
      | true =>
          have count : (matchRoute (requestPath ctx.request.target) path true).matchedSegments =
              (splitPathSegments path).length := by
            rw [matchRoute_plain here] at outer ⊢
            rw [(matchSegments_matched here outer).2.2, Nat.zero_add]
          rw [if_pos rfl, if_pos rfl, later, MatchResult.behind]
          simp only [Route.enter, if_true, Bool.false_eq_true, if_false, count]
          cases inner : (matchRoute (requestPath (stripMatchedPrefix ctx.request.target
              (splitPathSegments path).length)) (flatten rest pattern) false).matched with
          | false => rfl
          | true =>
              cases method.filter fun method => !iequals ctx.request.method method with
              | some _ => rfl
              | none => simp [strip, appendParams]

theorem handleContext_nest_users :
    ((nest [ascii "/api", ascii "/v1"] (({} : Router Id).route none (ascii "/users/:id")
      (fun ctx => { body := ctx.request.target }) false)).handleContext
        { request := { target := ascii "/api/v1/users/7?q" } }).run.body = ascii "/users/7?q" := by
  rw [handleContext_nest (by decide +kernel)]
  decide +kernel

end Router

/-- What the pattern of the route makes of the path. -/
def Route.result (route : Route m) (ctx : RequestContext) : MatchResult :=
  matchRoute (requestPath ctx.request.target) route.path route.isPrefix

/-- The route has no method, or that of the request up to case. -/
def Route.admits (route : Route m) (ctx : RequestContext) : Bool :=
  route.method.all fun method => iequals ctx.request.method method

def Route.takes (route : Route m) (ctx : RequestContext) : Bool :=
  (route.result ctx).matched && route.admits ctx

/-- The first of every class of words that are equal up to case. -/
def firstSpellings : List Bytes → List Bytes
  | [] => []
  | word :: later => word :: (firstSpellings later).filter fun other => !iequals word other

/-- The methods of the routes that match the path. -/
def methodsFor (routes : List (Route m)) (ctx : RequestContext) : List Bytes :=
  (routes.filter fun route => (route.result ctx).matched).filterMap Route.method

namespace Router

variable [Monad m]

/-- Methods are listed once, in the spelling that came first. -/
theorem foldl_addAllowedMethod (allowed methods : List Bytes) :
    methods.foldl addAllowedMethod allowed =
      allowed ++ (firstSpellings methods).filter fun method =>
        !allowed.any fun existing => iequals existing method := by
  induction methods generalizing allowed with
  | nil => simp [firstSpellings]
  | cons method _ ih =>
      rw [List.foldl_cons, ih, addAllowedMethod, firstSpellings]
      by_cases listed : (allowed.any fun existing => iequals existing method) = true
      · rw [if_pos listed, List.filter_cons_of_neg (by simpa using listed), List.filter_filter]
        congr 1
        apply List.filter_congr
        intro other _
        cases same : iequals method other with
        | false => simp
        | true =>
            rcases List.any_eq_true.mp listed with ⟨existing, member, spelled⟩
            have again : (allowed.any fun existing => iequals existing other) = true :=
              List.any_eq_true.mpr ⟨existing, member, by
                simp only [iequals, beq_iff_eq] at spelled same ⊢
                exact spelled.trans same⟩
            simp [again]
      · rw [if_neg listed, List.filter_cons_of_pos (by simpa using listed), List.filter_filter,
          List.append_assoc, List.singleton_append]
        congr 2
        apply List.filter_congr
        intro _ _
        simp [List.any_append, Bool.not_or, Bool.and_comm]

/-- The loop goes to the first route that takes the request, and has collected the methods
of those that match if there is none. -/
theorem dispatchRoutes_eq (router : Router m) (ctx : RequestContext) (routes : List (Route m))
    (allowed : List Bytes) :
    router.dispatchRoutes ctx routes allowed =
      match routes.find? fun route => route.takes ctx with
      | some route => route.handler (route.enter ctx (route.result ctx))
      | none => router.unrouted ctx ((methodsFor routes ctx).foldl addAllowedMethod allowed) := by
  induction routes generalizing allowed with
  | nil => rfl
  | cons route routes ih =>
      rw [dispatchRoutes]
      rw [show matchRoute (requestPath ctx.request.target) route.path route.isPrefix =
        route.result ctx from rfl]
      cases matched : (route.result ctx).matched with
      | false =>
          have passed : route.takes ctx = false := by simp [Route.takes, matched]
          have unlisted : methodsFor (route :: routes) ctx = methodsFor routes ctx := by
            simp [methodsFor, matched]
          rw [List.find?_cons_of_neg (by simp [passed]), unlisted]
          exact ih allowed
      | true =>
          cases method : route.method with
          | none =>
              have first : (route :: routes).find? (fun route => route.takes ctx) = some route :=
                List.find?_cons_of_pos (by simp [Route.takes, matched, Route.admits, method])
              rw [first]
              rfl
          | some method' =>
              cases same : iequals ctx.request.method method' with
              | true =>
                  have first : (route :: routes).find? (fun route => route.takes ctx) =
                      some route :=
                    List.find?_cons_of_pos (by
                      simp [Route.takes, matched, Route.admits, method, same])
                  have other : (some method').filter
                      (fun method => !iequals ctx.request.method method) = none := by
                    simp [same]
                  rw [first, other]
                  rfl
              | false =>
                  have passed : route.takes ctx = false := by
                    simp [Route.takes, Route.admits, method, same]
                  have listed : methodsFor (route :: routes) ctx =
                      method' :: methodsFor routes ctx := by
                    simp [methodsFor, matched, method]
                  have other : (some method').filter
                      (fun method => !iequals ctx.request.method method) = some method' := by
                    simp [same]
                  rw [List.find?_cons_of_neg (by simp [passed]), listed, List.foldl_cons,
                    ← ih, other]
                  rfl

omit [Monad m] in
theorem methodsFor_ne_nil {routes : List (Route m)} {ctx : RequestContext} {route : Route m}
    (member : route ∈ routes) (matched : (route.result ctx).matched = true)
    (passed : route.takes ctx = false) : methodsFor routes ctx ≠ [] := by
  cases method : route.method with
  | none => simp [Route.takes, matched, Route.admits, method] at passed
  | some _ =>
      apply List.ne_nil_of_mem
      exact List.mem_filterMap.mpr ⟨route, List.mem_filter.mpr ⟨member, matched⟩, method⟩

end Router

end Corouv.Web

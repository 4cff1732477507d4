import SdkApi.HandlerChain

/-!
# Route registration

`registerRoute` splices the middleware list of an entry and its handler into
one call of the router. The router runs its handler arguments in argument
order, so a route is the list of these arguments. Handlers are arbitrary
names; what they do is given separately by a semantics for them.
-/

namespace SdkApi.RouteRegistration
open HandlerChain List

variable {η : Type*}

structure Route (η : Type*) where
  methods : List String
  path : String
  handlers : List η

def appAdd (methods : List String) (path : String) (handler : η) (handlers : List η) : Route η :=
  ⟨methods,path,handler::handlers⟩

def appGet (path : String) (handler : η) (handlers : List η) : Route η :=
  appAdd ["GET"] path handler handlers

def appPost (path : String) (handler : η) (handlers : List η) : Route η :=
  appAdd ["POST"] path handler handlers

def appPut (path : String) (handler : η) (handlers : List η) : Route η :=
  appAdd ["PUT"] path handler handlers

def appPatch (path : String) (handler : η) (handlers : List η) : Route η :=
  appAdd ["PATCH"] path handler handlers

def appDelete (path : String) (handler : η) (handlers : List η) : Route η :=
  appAdd ["DELETE"] path handler handlers

/-- The body shared by the five verb branches: `mws[0], append(mws[1:], h)`. -/
def spliced (app : String → η → List η → Route η) (path : String) (h : η) : List η → Route η
  | [] => app path h []
  | m::ms => app path m (ms++[h])

def registerRoute (method path : String) (h : η) (mws : List η) : Route η :=
  match method with
  | "GET" => spliced appGet path h mws
  | "POST" => spliced appPost path h mws
  | "PUT" => spliced appPut path h mws
  | "PATCH" => spliced appPatch path h mws
  | "DELETE" => spliced appDelete path h mws
  | _ => appAdd [method] path h mws

def registerWithMws (method path : String) (mws : List η) (h : η) : Route η :=
  registerRoute method path h mws

structure RestEntry where
  method : String
  path : String
  handler : String

def RestEntry.validateREST (e : RestEntry) : Except String Unit :=
  if e.method = "" then .error "rest: method is required"
  else if e.path = "" then .error "rest: path is required"
  else if e.handler = "" then .error "rest: handler is required"
  else .ok ()

/-- `publish` is `wrapEventPublish`, or nothing. -/
def registerREST (rest : String → Option η) (publish : Option (η → η)) (pre : String)
    (e : RestEntry) (mws : List η) : Except String (Route η) :=
  match rest e.handler with
  | none => .error ("rest handler \"" ++ e.handler ++ "\" not found")
  | some h => .ok (registerWithMws e.method (pre ++ e.path) mws ((publish.getD id) h))

/-- Handlers run in list order, the last after all others have passed. -/
structure Guarded (r : Route η) (h : η) (mws : List η) : Prop where
  order : ∀ (σ ρ : Type) (sem : η → Handler σ ρ) (s : σ), executed sem r.handlers s <+: mws++[h]
  last : ∀ (σ ρ : Type) (sem : η → Handler σ ρ) (s : σ),
    mws.length < (executed sem r.handlers s).length → ∃ t, Reaches (mws.map sem) s t

section

variable (r : Route η) (h : η) (mws : List η)

lemma guarded_of_handlers (hr : r.handlers = mws++[h]) :
    Guarded r h mws where
  order σ ρ sem s := hr ▸ executed_prefix sem (mws++[h]) s
  last σ ρ sem s hl := by
    rw [hr] at hl
    have hp := executed_prefix sem (mws++[h]) s
    apply (executed_last sem mws h s).mp
    apply hp.eq_of_length
    have := hp.length_le
    simp only [length_append, length_singleton] at this ⊢
    omega

lemma handlers_of_guarded (hg : Guarded r h mws)
    (hl : r.handlers.length = mws.length+1) : r.handlers = mws++[h] := by
  have hp := hg.order Unit Unit (fun _ s => .next s) ()
  rw [executed_of_next (fun _ s => .next s) r.handlers () (fun _ _ s => ⟨s,rfl⟩)] at hp
  apply hp.eq_of_length
  simpa using hl

lemma guarded_iff (hl : r.handlers.length = mws.length+1) :
    Guarded r h mws ↔ r.handlers = mws++[h] :=
  ⟨fun hg => handlers_of_guarded r h mws hg hl,guarded_of_handlers r h mws⟩

end

lemma spliced_handlers (methods : List String) (path : String) (h : η) (mws : List η) :
    (spliced (appAdd methods) path h mws).handlers = mws++[h] := by
  cases mws <;> rfl

def verbs : List String := ["GET","POST","PUT","PATCH","DELETE"]

section

variable (method path : String) (h : η) (mws : List η)

lemma registerRoute_verb (hm : method ∈ verbs) :
    (registerRoute method path h mws).handlers = mws++[h] := by
  simp only [verbs, mem_cons, not_mem_nil, or_false] at hm
  rcases hm with rfl | rfl | rfl | rfl | rfl <;> exact spliced_handlers _ path h mws

lemma registerRoute_other (hm : method ∉ verbs) :
    registerRoute method path h mws = appAdd [method] path h mws := by
  simp only [verbs, mem_cons, not_mem_nil, or_false, not_or] at hm
  obtain ⟨h1,h2,h3,h4,h5⟩ := hm
  unfold registerRoute
  split <;> first | contradiction | rfl

lemma registerRoute_length : (registerRoute method path h mws).handlers.length = mws.length+1 := by
  by_cases hm : method ∈ verbs
  · simp [registerRoute_verb method path h mws hm]
  · simp [registerRoute_other method path h mws hm, appAdd]

end

lemma cons_eq_append_singleton (h : η) (mws : List η) : h::mws = mws++[h] ↔ ∀ m ∈ mws, m = h := by
  induction mws with
  | nil => simp
  | cons m ms ih =>
    simp only [cons_append, List.cons.injEq, forall_mem_cons]
    constructor
    · rintro ⟨rfl,ht⟩
      exact ⟨rfl,ih.mp ht⟩
    · rintro ⟨rfl,ht⟩
      exact ⟨rfl,ih.mpr ht⟩

lemma registerRoute_handlers_iff (method path : String) (h : η) (mws : List η) :
    (registerRoute method path h mws).handlers = mws++[h] ↔ method ∈ verbs ∨ ∀ m ∈ mws, m = h := by
  by_cases hm : method ∈ verbs
  · simp [registerRoute_verb method path h mws hm, hm]
  · simp only [registerRoute_other method path h mws hm, appAdd, hm, false_or]
    exact cons_eq_append_singleton h mws

/-- The default branch puts the handler before the middlewares, so exactly
the five spelled-out verbs guard a handler that differs from a middleware. -/
theorem registerRoute_guards_iff (method path : String) (h : η) (mws : List η) :
    Guarded (registerRoute method path h mws) h mws ↔ method ∈ verbs ∨ ∀ m ∈ mws, m = h := by
  rw [guarded_iff _ h mws (registerRoute_length method path h mws)]
  exact registerRoute_handlers_iff method path h mws

theorem options_route_unguarded :
    RestEntry.validateREST ⟨"OPTIONS","/orders","listOrders"⟩ = .ok () ∧
    ¬ Guarded (registerRoute "OPTIONS" "/orders" "listOrders" ["jwt"]) "listOrders" ["jwt"] := by
  refine ⟨by decide,fun hg => ?_⟩
  have hp := hg.order Unit Unit (fun _ _ => .stop () ()) ()
  exact absurd hp (by decide)

end SdkApi.RouteRegistration

import SdkApi.PathPatterns
import SdkApi.RouteRegistration
import SdkApi.CrudEntry

/-!
# Where the routes of a crud entry lead

`registerCRUD` gives an entry up to five routes: the list and create routes at
the entry's path and the get, update and delete routes at the item path. The
item path is the entry's path with the parameter `:id` behind it, unless the
path has a parameter of its own; then it is the entry's path itself, and the
list route stands before the get route. A request goes to the first route of
its method whose pattern its path matches. No route answers to `PUT`.
-/

namespace SdkApi.CrudRoutes
open PathPatterns RouteRegistration CrudEntry List Option

inductive Action where
  | middleware (name : String)
  | tenant
  | override (name : String)
  | provider (op : Operation)
  | published (inner : Action)

structure EntryDef where
  model : String
  path : String
  crud : Entry
  cache : String := ""
  eventPublish : List String := []

structure Provider where
  isCached : Bool

structure EntryHandlers where
  crud : List (String × Provider)
  rest : List String := []

def opName : Operation → String
  | .list => "list"
  | .get => "get"
  | .create => "create"
  | .update => "update"
  | .delete => "delete"

def buildIDParam (path : String) : String :=
  if (split path.toList).any isParam then "" else "/:id"

section

variable (entry : EntryDef) (handlers : EntryHandlers)

def registerOp (op : Operation) (method path : String) (wrap : Action → Action)
    (mws : List Action) : Except String (List (Route Action)) :=
  let name := entry.crud.overrides op
  if isDisabled entry.crud op then .ok []
  else if isOverridden entry.crud op then
    if name ∈ handlers.rest then .ok [registerWithMws method path mws (wrap (.override name))]
    else .error ("crud " ++ opName op ++ " override: handler \"" ++ name ++ "\" not found")
  else .ok [registerWithMws method path mws (wrap (.provider op))]

def wrapEventPublish (hasPublish : Bool) (handler : Action) : Action :=
  if hasPublish then .published handler else handler

def registerCRUDList (base : String) (mws : List Action) : Except String (List (Route Action)) :=
  registerOp entry handlers .list "GET" base id mws

def registerCRUDGet (base : String) (mws : List Action) : Except String (List (Route Action)) :=
  registerOp entry handlers .get "GET" (base ++ buildIDParam base) id mws

def registerCRUDCreate (base : String) (hasPublish : Bool) (mws : List Action) :
    Except String (List (Route Action)) :=
  registerOp entry handlers .create "POST" base (wrapEventPublish hasPublish) mws

def registerCRUDUpdate (base : String) (hasPublish : Bool) (mws : List Action) :
    Except String (List (Route Action)) :=
  registerOp entry handlers .update "PATCH" (base ++ buildIDParam base)
    (wrapEventPublish hasPublish) mws

def registerCRUDDelete (base : String) (hasPublish : Bool) (mws : List Action) :
    Except String (List (Route Action)) :=
  registerOp entry handlers .delete "DELETE" (base ++ buildIDParam base)
    (wrapEventPublish hasPublish) mws

def withTenant (mws : List Action) : List Action :=
  if entry.crud.tenantField ≠ "" then mws++[.tenant] else mws

def hasPublish (brokers : List String) : Bool :=
  0 < entry.eventPublish.length && 0 < brokers.length

def registerCRUD (pre : String) (brokers : List String) (mws : List Action) :
    Except String (List (Route Action)) :=
  match handlers.crud.lookup entry.model with
  | none => .error ("crud model \"" ++ entry.model ++ "\": no provider registered")
  | some provider =>
    if entry.cache ≠ "" && !provider.isCached then
      .error ("crud model \"" ++ entry.model ++ "\": cache=\"" ++ entry.cache ++
        "\" set in YAML but provider is not cached. Use runtime.CachedCRUD " ++
        "(or MySQLCachedCRUD) instead of MustRegister")
    else do
      let base := pre ++ entry.path
      let chain := withTenant entry mws
      let publish := hasPublish entry brokers
      let list ← registerCRUDList entry handlers base chain
      let get ← registerCRUDGet entry handlers base chain
      let create ← registerCRUDCreate entry handlers base publish chain
      let update ← registerCRUDUpdate entry handlers base publish chain
      let delete ← registerCRUDDelete entry handlers base publish chain
      return list++get++create++update++delete

end

def serves (method path : String) (r : Route Action) : Bool :=
  decide (method ∈ r.methods) && matchRoute r.path.toList path.toList

def dispatch (routes : List (Route Action)) (method path : String) : Option (Route Action) :=
  routes.find? (serves method path)

/-- `c.Params`: empty when the route has no parameter of the name. -/
def params (pattern path name : String) : String :=
  String.ofList (param name.toList (captured (segments pattern.toList) (segments path.toList)))

/-- The item routes hand the provider the parameter `id` of the request. -/
inductive Call where
  | list
  | get (id : String)
  | create
  | update (id : String)
  | delete (id : String)
  deriving DecidableEq

def callOf (id : String) : Operation → Call
  | .list => .list
  | .get => .get id
  | .create => .create
  | .update => .update id
  | .delete => .delete id

def perform (id : String) : Action → Option Call
  | .provider op => some (callOf id op)
  | .published inner => perform id inner
  | _ => none

/-- The handler of a route is the last in its chain. -/
def called (routes : List (Route Action)) (method path : String) : Option Call := do
  let r ← dispatch routes method path
  let handler ← r.handlers.getLast?
  perform (params r.path path "id") handler

section

variable {entry : EntryDef} {handlers : EntryHandlers}

def handlerOf (entry : EntryDef) (op : Operation) : Action :=
  if isOverridden entry.crud op then .override (entry.crud.overrides op) else .provider op

def slot (entry : EntryDef) (op : Operation) (method path : String) (wrap : Action → Action)
    (mws : List Action) : List (Route Action) :=
  if isDisabled entry.crud op then []
  else [registerWithMws method path mws (wrap (handlerOf entry op))]

lemma registerOp_ok {op : Operation} {method path : String} {wrap : Action → Action}
    {mws : List Action} {rs : List (Route Action)}
    (h : registerOp entry handlers op method path wrap mws = .ok rs) :
    rs = slot entry op method path wrap mws := by
  unfold registerOp at h
  unfold slot handlerOf
  by_cases hd : isDisabled entry.crud op
  · simpa [hd] using h.symm
  · by_cases ho : isOverridden entry.crud op
    · by_cases hr : entry.crud.overrides op ∈ handlers.rest
      · simpa [hd, ho, hr] using h.symm
      · simp [hd, ho, hr] at h
    · simpa [hd, ho] using h.symm

def crudRoutes (entry : EntryDef) (base : String) (wrap : Action → Action) (mws : List Action) :
    List (Route Action) :=
  slot entry .list "GET" base id mws ++ slot entry .get "GET" (base ++ buildIDParam base) id mws ++
    slot entry .create "POST" base wrap mws ++
    slot entry .update "PATCH" (base ++ buildIDParam base) wrap mws ++
    slot entry .delete "DELETE" (base ++ buildIDParam base) wrap mws

lemma bind_ok {ε α β : Type} {x : Except ε α} {f : α → Except ε β} {b : β}
    (h : x >>= f = .ok b) : ∃ a, x = .ok a ∧ f a = .ok b := by
  cases x with
  | error e => cases h
  | ok a => exact ⟨a,rfl,h⟩

lemma registerCRUD_ok {pre : String} {brokers : List String} {mws : List Action}
    {routes : List (Route Action)} (h : registerCRUD entry handlers pre brokers mws = .ok routes) :
    routes = crudRoutes entry (pre ++ entry.path) (wrapEventPublish (hasPublish entry brokers))
      (withTenant entry mws) := by
  unfold registerCRUD at h
  split at h
  · cases h
  · split_ifs at h
    obtain ⟨list,hi,h⟩ := bind_ok h
    obtain ⟨get,hg,h⟩ := bind_ok h
    obtain ⟨create,he,h⟩ := bind_ok h
    obtain ⟨update,hu,h⟩ := bind_ok h
    obtain ⟨delete,hl,h⟩ := bind_ok h
    cases h
    rw [registerOp_ok hi, registerOp_ok hg, registerOp_ok he, registerOp_ok hu, registerOp_ok hl]
    rfl

lemma registerWithMws_verb {method : String} (hm : method ∈ verbs) (path : String)
    (mws : List Action) (h : Action) :
    registerWithMws method path mws h = ⟨[method],path,mws++[h]⟩ := by
  simp only [verbs, mem_cons, not_mem_nil, or_false] at hm
  rcases hm with rfl | rfl | rfl | rfl | rfl <;> cases mws <;> rfl

variable {op : Operation} {method path : String} {wrap : Action → Action} {mws : List Action}
variable {m p : String}

lemma find_slot (hm : method ∈ verbs) :
    (slot entry op method path wrap mws).find? (serves method p) =
      if isDisabled entry.crud op = false ∧ matchRoute path.toList p.toList then
        some ⟨[method],path,mws++[wrap (handlerOf entry op)]⟩
      else none := by
  unfold slot
  by_cases hd : isDisabled entry.crud op
  · simp [hd]
  · rw [if_neg hd, registerWithMws_verb hm, find?_singleton]
    simp [serves, hd]

lemma find_slot_other (hm : method ∈ verbs) (hn : m ≠ method) :
    (slot entry op method path wrap mws).find? (serves m p) = none := by
  unfold slot
  by_cases hd : isDisabled entry.crud op
  · simp [hd]
  · rw [if_neg hd, registerWithMws_verb hm, find?_singleton]
    simp [serves, hn]

def callAt (wrap : Action → Action) (entry : EntryDef) (op : Operation) (pattern path : String) :
    Option Call :=
  perform (params pattern path "id") (wrap (handlerOf entry op))

section

variable {routes : List (Route Action)}

lemma called_of_dispatch {methods : List String}
    (h : dispatch routes m p = some ⟨methods,path,mws++[wrap (handlerOf entry op)]⟩) :
    called routes m p = callAt wrap entry op path p := by
  rw [called, h]
  simp [callAt]

lemma called_of_none (h : dispatch routes m p = none) : called routes m p = none := by
  rw [called, h]
  rfl

lemma called_of_slot (mws : List Action) (hm : method ∈ verbs)
    (h : dispatch routes method p = (slot entry op method path wrap mws).find? (serves method p)) :
    called routes method p =
      if isDisabled entry.crud op = false ∧ matchRoute path.toList p.toList then
        callAt wrap entry op path p
      else none := by
  rw [find_slot hm] at h
  split_ifs at h ⊢
  · exact called_of_dispatch h
  · exact called_of_none h

end

variable (base p : String)

lemma called_get :
    called (crudRoutes entry base wrap mws) "GET" p =
      if isDisabled entry.crud .list = false ∧ matchRoute base.toList p.toList then
        callAt id entry .list base p
      else if isDisabled entry.crud .get = false ∧
          matchRoute (base ++ buildIDParam base).toList p.toList then
        callAt id entry .get (base ++ buildIDParam base) p
      else none := by
  have hi : dispatch (crudRoutes entry base wrap mws) "GET" p =
      ((slot entry .list "GET" base id mws).find? (serves "GET" p)).or
        ((slot entry .get "GET" (base ++ buildIDParam base) id mws).find? (serves "GET" p)) := by
    simp (disch := decide) only [dispatch, crudRoutes, find?_append, or_none,
      find_slot_other]
  rw [find_slot (by decide), find_slot (by decide)] at hi
  split_ifs at hi ⊢
  · exact called_of_dispatch hi
  · exact called_of_dispatch hi
  · exact called_of_dispatch hi
  · exact called_of_none hi

lemma called_patch :
    called (crudRoutes entry base wrap mws) "PATCH" p =
      if isDisabled entry.crud .update = false ∧
          matchRoute (base ++ buildIDParam base).toList p.toList then
        callAt wrap entry .update (base ++ buildIDParam base) p
      else none := by
  apply called_of_slot mws (by decide)
  simp (disch := decide) only [dispatch, crudRoutes, find?_append, or_none,
    none_or, find_slot_other]

lemma called_delete :
    called (crudRoutes entry base wrap mws) "DELETE" p =
      if isDisabled entry.crud .delete = false ∧
          matchRoute (base ++ buildIDParam base).toList p.toList then
        callAt wrap entry .delete (base ++ buildIDParam base) p
      else none := by
  apply called_of_slot mws (by decide)
  simp (disch := decide) only [dispatch, crudRoutes, find?_append, none_or,
    find_slot_other]

lemma called_put : called (crudRoutes entry base wrap mws) "PUT" p = none := by
  apply called_of_none
  simp (disch := decide) only [dispatch, crudRoutes, find?_append, none_or,
    find_slot_other]

end

section

def Collection (base c : String) : Prop := fitsAll (parts base.toList) (parts c.toList)

def itemPath (c id : String) : String := c ++ "/" ++ id

variable {base c id : String}

lemma toList_itemPath (c id : String) : (itemPath c id).toList = c.toList++ '/'::id.toList := by
  simp [itemPath]

lemma segments_itemPath (hid : '/' ∉ id.toList) (hn : id ≠ "") :
    segments (itemPath c id).toList = parts c.toList++[id.toList] := by
  rw [toList_itemPath, segments_item c.toList hid]
  simpa using hn

lemma segments_itemPath_empty (c : String) :
    segments (itemPath c "").toList = segments c.toList := by
  rw [toList_itemPath]
  exact segments_slash c.toList

lemma segments_itemPattern (base : String) :
    segments (base ++ buildIDParam base).toList =
      if (split base.toList).any isParam then segments base.toList
      else parts base.toList++[":id".toList] := by
  unfold buildIDParam
  split_ifs with h
  · rw [String.append_empty]
  · have hi : (base ++ "/:id").toList = base.toList++ '/'::":id".toList := by simp
    rw [hi, segments_item base.toList (by decide) (by decide)]

lemma trim_length_le (ss : List Segment) : (trim ss).length ≤ ss.length :=
  (List.rdropWhile_prefix _ ss).length_le

lemma match_collection (hc : Collection base c) : matchRoute base.toList c.toList :=
  fitsAll_trim hc

lemma not_match_of_length {ps ss : List Segment} (h : ps.length ≠ ss.length) :
    fitsAll ps ss = false :=
  Bool.eq_false_iff.mpr fun hf => h (fitsAll_length hf)

section

variable (hc : Collection base c) (hid : '/' ∉ id.toList)
include hc hid

lemma match_list_item : matchRoute base.toList (itemPath c id).toList ↔ id = "" := by
  by_cases hn : id = ""
  · subst hn
    rw [matchRoute, segments_itemPath_empty]
    exact ⟨fun _ => rfl,fun _ => match_collection hc⟩
  · have hl := fitsAll_length hc
    have ht := trim_length_le (parts base.toList)
    rw [matchRoute, segments_itemPath hid hn, not_match_of_length]
    · simp [hn]
    · rw [segments, length_append, length_singleton]
      omega

lemma match_item :
    matchRoute (base ++ buildIDParam base).toList (itemPath c id).toList ↔
      (id = "" ↔ (split base.toList).any isParam) := by
  by_cases hp : (split base.toList).any isParam
  · rw [matchRoute, segments_itemPattern, if_pos hp]
    simpa [hp, matchRoute] using match_list_item hc hid
  · have hl := fitsAll_length hc
    rw [matchRoute, segments_itemPattern, if_neg hp]
    by_cases hn : id = ""
    · subst hn
      have ht := trim_length_le (parts c.toList)
      rw [segments_itemPath_empty, not_match_of_length]
      · simp [hp]
      · rw [segments, length_append, length_singleton]
        omega
    · have hi : fits ":id".toList id.toList := by simpa [fits, isParam] using hn
      rw [segments_itemPath hid hn, fitsAll_append_single, hi, hc]
      simp [hp, hn]

lemma params_item (he : id ≠ "") (hp : (split base.toList).any isParam = false) :
    params (base ++ buildIDParam base) (itemPath c id) "id" = id := by
  have hn : captured (parts base.toList) (parts c.toList) = [] :=
    captured_eq_nil (by rw [any_parts rfl, hp])
  rw [params, segments_itemPattern, if_neg (by simp [hp]), segments_itemPath hid he,
    captured_append_single hc, hn]
  have hl : captured [":id".toList] [id.toList] = [("id".toList,id.toList)] := rfl
  rw [nil_append, hl]
  simp [param, sameText]

end

/-- A parameter of the path is called `id`. -/
def hasIDSegment (path : String) : Bool :=
  (split path.toList).any fun p => isParam p && sameText "id".toList p.tail

lemma params_item_empty (hc : Collection base c) (hp : (split base.toList).any isParam) :
    params (base ++ buildIDParam base) (itemPath c "") "id" = "" ↔ hasIDSegment base = false := by
  rw [params, segments_itemPattern, if_pos hp, segments_itemPath_empty, String.ofList_eq_empty_iff,
    param_eq_nil_iff (match_collection hc), any_segments rfl, hasIDSegment]

end

section

inductive Demand where
  | list
  | get
  | patch
  | put
  | delete

def Demand.method : Demand → String
  | .list => "GET"
  | .get => "GET"
  | .patch => "PATCH"
  | .put => "PUT"
  | .delete => "DELETE"

def Demand.operation : Demand → Operation
  | .list => .list
  | .get => .get
  | .patch => .update
  | .put => .update
  | .delete => .delete

def Demand.path (c id : String) : Demand → String
  | .list => c
  | _ => itemPath c id

def Demand.Met (routes : List (Route Action)) (c id : String) (d : Demand) : Prop :=
  called routes d.method (d.path c id) = some (callOf id d.operation)

/-- An empty id is taken where no parameter ends the path or is named `id`. -/
def ItemReached (base id : String) : Prop :=
  if id = "" then (split base.toList).any isParam ∧ hasIDSegment base = false
  else (split base.toList).any isParam = false

def Demand.Reached (entry : EntryDef) (base id : String) : Demand → Prop
  | .list => True
  | .get => ItemReached base id ∧ (id = "" → isDisabled entry.crud .list)
  | .patch => ItemReached base id
  | .put => False
  | .delete => ItemReached base id

variable {entry : EntryDef} {base c i : String} {publish : Bool} {mws : List Action}

lemma wrapEventPublish_false : wrapEventPublish false = id := rfl

lemma perform_wrapEventPublish (i : String) (a : Action) :
    perform i (wrapEventPublish publish a) = perform i a := by
  cases publish <;> rfl

variable {op : Operation}

lemma callAt_served (hs : Served entry.crud op) (pattern path : String) :
    callAt (wrapEventPublish publish) entry op pattern path =
      some (callOf (params pattern path "id") op) := by
  rw [callAt, perform_wrapEventPublish, handlerOf, hs.2]
  rfl

lemma item_call_iff (hc : Collection base c) (hi : '/' ∉ i.toList) :
    (matchRoute (base ++ buildIDParam base).toList (itemPath c i).toList ∧
      params (base ++ buildIDParam base) (itemPath c i) "id" = i) ↔ ItemReached base i := by
  rw [match_item hc hi, ItemReached]
  split_ifs with hn
  · subst hn
    simp only [true_iff]
    exact and_congr_right fun hp => params_item_empty hc hp
  · constructor
    · intro h
      simpa [hn] using h.1
    · intro hp
      exact ⟨by simp [hn, hp],params_item hc hi hn hp⟩

lemma callOf_injective (ho : op = .get ∨ op = .update ∨ op = .delete)
    (i j : String) : callOf i op = callOf j op ↔ i = j := by
  rcases ho with rfl | rfl | rfl <;> simp [callOf]

lemma item_met_iff (publish : Bool) (ho : op = .get ∨ op = .update ∨ op = .delete)
    (hs : Served entry.crud op) (hc : Collection base c) (hi : '/' ∉ i.toList) :
    (if isDisabled entry.crud op = false ∧
        matchRoute (base ++ buildIDParam base).toList (itemPath c i).toList then
      callAt (wrapEventPublish publish) entry op (base ++ buildIDParam base) (itemPath c i)
    else none) = some (callOf i op) ↔ ItemReached base i := by
  rw [callAt_served hs, ← item_call_iff hc hi]
  split_ifs with hm
  · rw [some_inj, callOf_injective ho]
    exact (and_iff_right hm.2).symm
  · constructor
    · intro h
      cases h
    · intro h
      exact absurd ⟨hs.1,h.1⟩ hm

lemma list_met (hs : Served entry.crud .list) (hc : Collection base c) :
    Demand.list.Met (crudRoutes entry base (wrapEventPublish publish) mws) c i := by
  change called _ "GET" c = _
  rw [called_get, if_pos ⟨hs.1,match_collection hc⟩, ← wrapEventPublish_false, callAt_served hs]
  simp only [Demand.operation, callOf]

lemma get_met_iff (hs : Served entry.crud .get) (hc : Collection base c) (hi : '/' ∉ i.toList) :
    Demand.get.Met (crudRoutes entry base (wrapEventPublish publish) mws) c i ↔
      Demand.get.Reached entry base i := by
  have ht := item_met_iff false (.inl rfl) hs hc hi
  rw [wrapEventPublish_false] at ht
  change called _ "GET" (itemPath c i) = _ ↔ ItemReached base i ∧ _
  rw [called_get]
  by_cases hl : isDisabled entry.crud .list = false ∧
      matchRoute base.toList (itemPath c i).toList
  · have he : i = "" := (match_list_item hc hi).mp hl.2
    have hca : callAt id entry .list base (itemPath c i) ≠ some (callOf i .get) := by
      unfold callAt handlerOf
      split_ifs <;> simp [perform, callOf]
    rw [if_pos hl]
    constructor
    · intro h
      exact absurd h hca
    · intro h
      simp [h.2 he] at hl
  · have ha : i = "" → isDisabled entry.crud .list := by
      intro he
      by_contra hd
      exact hl ⟨by simpa using hd,(match_list_item hc hi).mpr he⟩
    rw [if_neg hl]
    exact ht.trans (and_iff_left ha).symm

/-- Which requests reach their operation with the id of their path. -/
theorem demand_met_iff (entry : EntryDef) (handlers : EntryHandlers) (pre : String)
    (brokers : List String) (mws : List Action) (routes : List (Route Action))
    (h : registerCRUD entry handlers pre brokers mws = .ok routes) (c i : String)
    (hc : Collection (pre ++ entry.path) c) (hi : '/' ∉ i.toList) (d : Demand)
    (hs : Served entry.crud d.operation) :
    d.Met routes c i ↔ d.Reached entry (pre ++ entry.path) i := by
  rw [registerCRUD_ok h]
  cases d with
  | list => exact iff_of_true (list_met hs hc) trivial
  | get => exact get_met_iff hs hc hi
  | patch =>
    change called _ "PATCH" (itemPath c i) = _ ↔ _
    rw [called_patch]
    exact item_met_iff _ (.inr (.inl rfl)) hs hc hi
  | put =>
    change called _ "PUT" (itemPath c i) = _ ↔ _
    rw [called_put]
    exact iff_of_false nofun id
  | delete =>
    change called _ "DELETE" (itemPath c i) = _ ↔ _
    rw [called_delete]
    exact item_met_iff _ (.inr (.inr rfl)) hs hc hi

def plainEntry (path : String) : EntryDef where
  model := "Item"
  path := path
  crud := { tenantField := "" }

def plainHandlers : EntryHandlers where
  crud := [("Item",⟨false⟩)]

lemma plainEntry_served {path : String} {op : Operation} : Served (plainEntry path).crud op :=
  ⟨rfl,rfl⟩

theorem orders_demand_met :
    registerCRUD (plainEntry "/orders") plainHandlers "" [] [] =
        .ok (crudRoutes (plainEntry "/orders") "/orders" id []) ∧
      Demand.get.Met (crudRoutes (plainEntry "/orders") "/orders" id []) "/orders" "7" :=
  ⟨rfl,(demand_met_iff (plainEntry "/orders") plainHandlers "" [] [] _ rfl "/orders" "7"
    (by unfold Collection; decide) (by decide) .get plainEntry_served).mpr
      ⟨by unfold ItemReached; decide,nofun⟩⟩

/-- Every operation is served here. `PUT` has no route at the plain path, and
no request for an item has one at a path with a parameter. -/
theorem orders_put_unmet :
    (∃ routes, registerCRUD (plainEntry "/orders") plainHandlers "" [] [] = .ok routes ∧
      called routes "PATCH" "/orders/7" = some (.update "7") ∧
      ¬ Demand.put.Met routes "/orders" "7") ∧
    ∃ routes, registerCRUD (plainEntry "/orgs/:org/items") plainHandlers "" [] [] = .ok routes ∧
      Collection "/orgs/:org/items" "/orgs/acme/items" ∧
      ∀ d : Demand, d ≠ .list → ¬ d.Met routes "/orgs/acme/items" "7" := by
  refine ⟨⟨_,rfl,by decide,by unfold Demand.Met; decide⟩,_,rfl,by unfold Collection; decide,?_⟩
  intro d hd
  cases d with
  | list => exact absurd rfl hd
  | _ => unfold Demand.Met; decide

end

end SdkApi.CrudRoutes

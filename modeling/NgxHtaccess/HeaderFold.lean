import NgxHtaccess.Lib.Overwrites
import NgxHtaccess.Site

/-!
The Header directives of a request as writes to its response headers. `htaccess_apply_headers`
appends at `set` and passes over `unset`, so a header that is there already stays.
-/
namespace NgxHtaccess
open Overwrites

/-- A header name, with its case left out. -/
def headerKey (name : NgxStr) : NgxStr := name.map ngxTolower

def isSetAction (d : Header) : Bool := eqIgnoreCase d.action (lit "set")

def isUnsetAction (d : Header) : Bool := eqIgnoreCase d.action (lit "unset")

/-- The headers that are sent: a zero hash takes a header out. -/
def sentHeaders (r : Request) : List TableElt := r.headersOut.filter (·.hash ≠ 0)

def headerValues (name : NgxStr) (r : Request) : List NgxStr :=
  ((sentHeaders r).filter (headerKey ·.key = headerKey name)).map (·.value)

/-- What a directive makes of the values of a name. -/
def headerStep (name : NgxStr) (values : List NgxStr) (d : Header) : List NgxStr :=
  if headerKey d.name = headerKey name then
    if isSetAction d then [d.value] else []
  else values

/-- The headers that no directive names. -/
def unnamedHeaders (ds : List Header) (r : Request) : List TableElt :=
  (sentHeaders r).filter fun h => !ds.any fun d => headerKey d.name = headerKey h.key

/-- The headers of `r'` are those of `r` with the directives applied in order. -/
structure HeaderLaw (ds : List Header) (r r' : Request) : Prop where
  named : ∀ name, headerValues name r' = ds.foldl (headerStep name) (headerValues name r)
  unnamed : unnamedHeaders ds r' = unnamedHeaders ds r

/-- A Header directive that sets or takes out a header. -/
def SetsOrUnsets (d : Header) : Prop :=
  d.name ≠ [] ∧ (isSetAction d = true ∨ isUnsetAction d = true)

instance (d : Header) : Decidable (SetsOrUnsets d) :=
  inferInstanceAs (Decidable (d.name ≠ [] ∧ (isSetAction d = true ∨ isUnsetAction d = true)))

/-- The directive as a write under its name. -/
def headerWrite (d : Header) : Write NgxStr NgxStr where
  key := headerKey d.name
  value := if isSetAction d then some d.value else none

section Directive
variable {d : Header}

theorem setsHeader_eq (h : SetsOrUnsets d) : setsHeader d = isSetAction d := by
  obtain ⟨hname, hset | hunset⟩ := h
  · have hset' := hset
    simp only [isSetAction, eqIgnoreCase, Bool.and_eq_true, decide_eq_true_eq] at hset'
    have hlength : d.action.length = 3 := hset'.1
    rw [hset, setsHeader, decide_eq_true hname, hlength, ← hlength, hset'.2]
    simp [hlength]
  · simp only [isUnsetAction, eqIgnoreCase, Bool.and_eq_true, decide_eq_true_eq] at hunset
    obtain ⟨hlength, hcmp⟩ := hunset
    have hfive : d.action.length = 5 := hlength
    have hset : isSetAction d = false := by
      rw [isSetAction, eqIgnoreCase, hfive]
      rfl
    rw [hset, setsHeader]
    cases haction : d.action with
    | nil => rw [haction] at hfive; cases hfive
    | cons c action =>
        have hc : ngxTolower c = ngxTolower (ch 'u') := by
          by_contra hne
          have hmiss : ngxStrncasecmpEq (c :: action) (lit "unset") (action.length + 1) = false :=
            if_neg hne
          rw [haction, List.length_cons, hmiss] at hcmp
          cases hcmp
        have hs : ngxTolower c ≠ ngxTolower (ch 's') := by
          rw [hc]
          decide
        have hmiss : ngxStrncasecmpEq (c :: action) (lit "set") 3 = false := if_neg hs
        rw [hmiss, Bool.and_false]

theorem headerStep_eq (name : NgxStr) (values : List NgxStr) :
    headerStep name values d = apply (headerKey name) values (headerWrite d) := by
  unfold headerStep apply headerWrite
  cases isSetAction d <;> rfl

theorem foldl_headerStep (name : NgxStr) (ds : List Header) (values : List NgxStr) :
    ds.foldl (headerStep name) values =
      (ds.map headerWrite).foldl (apply (headerKey name)) values := by
  rw [List.foldl_map]
  exact congrArg (fun f => ds.foldl f values) (funext fun v => funext fun d => headerStep_eq name v)

end Directive

/-- The header that a `set` leaves. -/
def headerOf (d : Header) : TableElt where
  hash := 1
  key := d.name
  value := d.value
  pool := some d.pool

section Apply
variable {merged : MergedCtx} (r : Request)

theorem htaccessApplyHeaders_headersOut
    (hactions : ∀ d ∈ merged.headers.getD [], SetsOrUnsets d)
    (hexpires : merged.expiresByType = none) :
    (htaccessApplyHeaders r merged).headersOut =
      r.headersOut ++ ((merged.headers.getD []).filter isSetAction).map headerOf := by
  have hfold : ∀ (ds : List Header) (r : Request), (∀ d ∈ ds, SetsOrUnsets d) →
      (ds.foldl (fun r h => if setsHeader h then htaccessSetHeader r h.name h.value h.pool
        else r) r).headersOut = r.headersOut ++ (ds.filter isSetAction).map headerOf := by
    intro ds
    induction ds with
    | nil => exact fun r _ => (List.append_nil _).symm
    | cons d ds ih =>
        intro r hds
        rw [List.foldl_cons, ih _ fun e he => hds e (List.mem_cons_of_mem d he),
          setsHeader_eq (hds d List.mem_cons_self), List.filter_cons]
        cases isSetAction d with
        | false => rfl
        | true => exact List.append_assoc _ _ _
  unfold htaccessApplyHeaders
  rw [hexpires]
  cases merged.expiresActive <;> exact hfold _ r hactions

/-- The directives only add values. -/
theorem headerValues_apply (hactions : ∀ d ∈ merged.headers.getD [], SetsOrUnsets d)
    (hexpires : merged.expiresByType = none) (name : NgxStr) :
    headerValues name (htaccessApplyHeaders r merged) =
      headerValues name r ++ added (headerKey name) ((merged.headers.getD []).map headerWrite) := by
  have hadded : ∀ ds : List Header,
      (((((ds.filter isSetAction).map headerOf).filter (·.hash ≠ 0)).filter
        (headerKey ·.key = headerKey name)).map (·.value)) =
          added (headerKey name) (ds.map headerWrite) := by
    intro ds
    induction ds with
    | nil => rfl
    | cons d ds ih =>
        have hcons : added (headerKey name) (headerWrite d :: ds.map headerWrite) =
            (if headerKey d.name = headerKey name then (headerWrite d).value.toList else []) ++
              added (headerKey name) (ds.map headerWrite) := List.flatMap_cons
        rw [List.map_cons, hcons, ← ih, List.filter_cons, headerWrite]
        cases isSetAction d with
        | false => simp
        | true => by_cases hname : headerKey d.name = headerKey name <;> simp [headerOf, hname]
  rw [headerValues, sentHeaders, htaccessApplyHeaders_headersOut r hactions hexpires,
    List.filter_append, List.filter_append, List.map_append, hadded]
  rfl

theorem unnamedHeaders_apply (hactions : ∀ d ∈ merged.headers.getD [], SetsOrUnsets d)
    (hexpires : merged.expiresByType = none) :
    unnamedHeaders (merged.headers.getD []) (htaccessApplyHeaders r merged) =
      unnamedHeaders (merged.headers.getD []) r := by
  rw [unnamedHeaders, sentHeaders, htaccessApplyHeaders_headersOut r hactions hexpires,
    List.filter_append, List.filter_append]
  have hnone : (((((merged.headers.getD []).filter isSetAction).map headerOf).filter
      (·.hash ≠ 0)).filter fun h =>
        !(merged.headers.getD []).any fun d => headerKey d.name = headerKey h.key) = [] := by
    rw [List.filter_eq_nil_iff]
    intro h hmem
    obtain ⟨d, hd, rfl⟩ := List.mem_map.mp (List.mem_of_mem_filter hmem)
    have hany : ((merged.headers.getD []).any fun e =>
        headerKey e.name = headerKey (headerOf d).key) = true :=
      List.any_eq_true.mpr ⟨d, List.mem_of_mem_filter hd, decide_eq_true rfl⟩
    rw [hany]
    exact Bool.false_ne_true
  rw [hnone, List.append_nil]
  rfl

end Apply

/-- At a directive the response has no header of its name yet. -/
def HeaderUnset (r : Request) (before : List Header) (d : Header) : Prop :=
  (∀ h ∈ sentHeaders r, headerKey h.key ≠ headerKey d.name) ∧
    ∀ e ∈ before, isSetAction e = true → headerKey e.name ≠ headerKey d.name

theorem headerUnset_iff (r : Request) (before : List Header) (d : Header) :
    HeaderUnset r before d ↔
      headerValues d.name r ++ added (headerKey d.name) (before.map headerWrite) = [] := by
  rw [List.append_eq_nil_iff, headerValues, List.map_eq_nil_iff, List.filter_eq_nil_iff, added,
    List.flatMap_eq_nil_iff, HeaderUnset]
  refine and_congr (forall₂_congr fun h _ => by simp) ?_
  constructor
  · intro h w hw
    obtain ⟨e, he, rfl⟩ := List.mem_map.mp hw
    unfold headerWrite
    by_cases hset : isSetAction e = true
    · rw [if_neg (h e he hset)]
    · rw [if_neg hset, Option.toList_none, ite_self]
  · intro h e he hset hname
    have hempty := h (headerWrite e) (List.mem_map_of_mem he)
    rw [headerWrite, if_pos hset, if_pos hname] at hempty
    cases hempty

/-- The directives have the meaning of `set` and `unset` exactly when each of them finds no
header of its name. -/
theorem headerLaw_iff (merged : MergedCtx) (r : Request)
    (hactions : ∀ d ∈ merged.headers.getD [], SetsOrUnsets d)
    (hexpires : merged.expiresByType = none) :
    HeaderLaw (merged.headers.getD []) r (htaccessApplyHeaders r merged) ↔
      ∀ before d after, merged.headers.getD [] = before ++ d :: after →
        HeaderUnset r before d := by
  have hnamed : ∀ name, headerValues name (htaccessApplyHeaders r merged) =
      (merged.headers.getD []).foldl (headerStep name) (headerValues name r) ↔
        FindsNone (headerKey name) (headerValues name r)
          ((merged.headers.getD []).map headerWrite) := by
    intro name
    rw [headerValues_apply r hactions hexpires, foldl_headerStep, ← foldl_apply_eq_iff]
    exact eq_comm
  constructor
  · intro h before d after hsplit
    rw [headerUnset_iff]
    refine (hnamed d.name).mp (h.named d.name) _ (headerWrite d) (after.map headerWrite) ?_ rfl
    rw [hsplit, List.map_append, List.map_cons]
  · intro h
    refine ⟨fun name => (hnamed name).mpr fun before w after hsplit hw => ?_,
      unnamedHeaders_apply r hactions hexpires⟩
    obtain ⟨before', rest, hds, rfl, hrest⟩ := List.map_eq_append_iff.mp hsplit
    obtain ⟨d, after', rfl, rfl, -⟩ := List.map_eq_cons_iff.mp hrest
    have hname : headerKey d.name = headerKey name := hw
    have hempty := (headerUnset_iff r before' d).mp (h before' d after' hds)
    rw [headerValues, hname] at hempty
    exact hempty

/-- `Header set X a` and then `Header unset X`. -/
def setThenUnset : MergedCtx where
  headers := some [⟨lit "set", lit "X", lit "a", false, 0⟩, ⟨lit "unset", lit "x", [], false, 0⟩]

theorem unset_leaves_header :
    (∀ d ∈ setThenUnset.headers.getD [], SetsOrUnsets d) ∧
      ¬ HeaderLaw (setThenUnset.headers.getD []) (siteRequest "/")
        (htaccessApplyHeaders (siteRequest "/") setThenUnset) := by
  refine ⟨by decide, fun h => ?_⟩
  exact absurd (h.named (lit "X")) (by decide)

def setOnce : MergedCtx where
  headers := some [⟨lit "Set", lit "X", lit "a", false, 0⟩, ⟨lit "unset", lit "Y", [], true, 0⟩,
    ⟨lit "set", lit "Z", lit "b", false, 0⟩]

theorem set_once_law :
    HeaderLaw (setOnce.headers.getD []) (siteRequest "/")
      (htaccessApplyHeaders (siteRequest "/") setOnce) := by
  refine (headerLaw_iff setOnce (siteRequest "/") (by decide) rfl).mpr ?_
  intro before d after hsplit
  match before, hsplit with
  | [], hsplit | [_], hsplit | [_, _], hsplit =>
      cases hsplit
      exact ⟨by decide, by decide⟩
  | _ :: _ :: _ :: before, hsplit => cases before <;> cases hsplit

end NgxHtaccess

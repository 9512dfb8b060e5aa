import FreeipaProv.AddOrMod

/-!
# What a request asks for

The server's reading of a request: the values it adds to and removes from
list attributes and the scalars it sets.  `addattr` and `delattr` strings are
split at their first `=`; the arguments of the dedicated methods are read back
with the tables of routes.  Anything else a request carries, apart from the
entry `all`, is kept as a change of its own, so that nothing is overlooked.
-/

namespace FreeipaProv

open Fallible

inductive Change where
  | add (key : String) (val : Atom)
  | del (key : String) (val : Atom)
  | set (key : String) (val : Val)
  | other (key : String) (val : Val)

def Change.key : Change → String
  | .add key _ => key
  | .del key _ => key
  | .set key _ => key
  | .other key _ => key

def Side.change : Side → String → Atom → Change
  | .add => .add
  | .del => .del

/-- `key=val`, split at the first `=`. -/
def splitAttr (s : String) : String × String :=
  (String.ofList (s.toList.takeWhile (· ≠ '=')),
    String.ofList ((s.toList.dropWhile (· ≠ '=')).drop 1))

/-- One string of an `addattr` or `delattr` list. -/
def decodeAttr (side : Side) (argument : String) : Val → Change
  | .str s => side.change (splitAttr s).1 (.str (splitAttr s).2)
  | v => .other argument v

/-- An entry of the item of an add or mod request. -/
def decodeBaseEntry (entry : String × Val) : List Change :=
  match entry with
  | ("all", _) => []
  | ("addattr", .list vs) => vs.map (decodeAttr .add "addattr")
  | ("delattr", .list vs) => vs.map (decodeAttr .del "delattr")
  | (key, val) => [.set key val]

def decodeBase (item : Dict String Val) : List Change :=
  item.items.flatMap decodeBaseEntry

/-- A value as a dedicated method encodes it. -/
def Encoding.decode : Encoding → Val → Option Atom
  | .base64, .dict [("__base64__", .atom a)] => some a
  | .base64, _ => none
  | _, .atom a => some a
  | _, _ => none

/-- The values a dedicated method adds to or removes from an attribute. -/
def Route.decodeValues (route : Route) (key : String) : Val → List Change
  | .list vs => vs.map fun v =>
      match route.encoding.decode v with
      | some a => route.side.change key a
      | none => .other key v
  | v => [.other key v]

/-- An entry of the item of a dedicated method. -/
def Route.decodeEntry (route : Route) (entry : String × Val) : List Change :=
  if entry.1 = "all" then []
  else
    match route.args.lookup entry.1 with
    | some key => route.decodeValues key entry.2
    | none => [.other entry.1 entry.2]

def Route.decode (route : Route) (r : Request) : List Change :=
  match route.encoding with
  | .extraName =>
      (route.args.flatMap fun arg =>
        r.name.getLast?.toList.flatMap (route.decodeValues arg.2)) ++
      r.item.items.flatMap route.decodeEntry
  | _ => r.item.items.flatMap route.decodeEntry

/-- The route a method belongs to. -/
def Client.routeOf (cl : Client) (method : String) : Option Route :=
  (cl.routes.map Prod.snd).find? fun route => route.method = method

/-- The changes a request asks for. -/
def Client.decode (cl : Client) (r : Request) : List Change :=
  if r.method = cl.method .add ∨ r.method = cl.method .mod then
    decodeBase r.item
  else
    match cl.routeOf r.method with
    | some route => route.decode r
    | none => r.item.items.map fun entry => .other entry.1 entry.2

/-! ## The changes of a diff -/

/-- A declared attribute other than the request keys and the enable flag. -/
def Client.Managed (cl : Client) (key : String) : Prop :=
  cl.cls.IsAttr key ∧ cl.cls.enablekey ≠ some key

instance (cl : Client) (key : String) : Decidable (cl.Managed key) :=
  inferInstanceAs (Decidable (_ ∧ _))

/-- A value of a list attribute as the request carries it: in the base
request as a string. -/
def Client.wire (cl : Client) (key : String) (val : Atom) : Atom :=
  if key ∈ cl.cls.baseKeys then .str val.pyStr else val

def Client.sideChanges (cl : Client) (diffs : Changes) (side : Side) :
    List Change :=
  ((diffs.side side).items.filter fun item => cl.Managed item.1).flatMap
    fun item => item.2.map fun val => side.change item.1 (cl.wire item.1 val)

def Client.scalarSets (cl : Client) (diffs : Changes) : List Change :=
  (diffs.scalars.items.filter fun item => cl.Managed item.1).map
    fun item => .set item.1 item.2

/-- The diff of the managed attributes, as the requests carry it. -/
def Client.managedChanges (cl : Client) (diffs : Changes) : List Change :=
  cl.sideChanges diffs .add ++ cl.sideChanges diffs .del ++
    cl.scalarSets diffs

/-! ## Strings of the base request -/

theorem splitAttr_append {key : String} (hkey : '=' ∉ key.toList)
    (val : String) : splitAttr (key ++ "=" ++ val) = (key, val) := by
  have hchars : (key ++ "=" ++ val).toList = key.toList ++ '=' :: val.toList := by
    simp
  have hall : ∀ c ∈ key.toList, decide (c ≠ '=') = true := by
    intro c hc
    rw [decide_eq_true_eq]
    rintro rfl
    exact hkey hc
  rw [splitAttr, hchars, List.takeWhile_append_of_pos hall,
    List.dropWhile_append_of_pos hall]
  simp

/-- Decoding the strings of an `addattr` or `delattr` list. -/
theorem decode_rewriteListChanges (side : Side) (argument : String)
    {attrs : Dict String (List Atom)}
    (hkeys : ∀ key vals, attrs.lookup key = some vals → '=' ∉ key.toList) :
    ∃ strs : List String,
      rewriteListChanges attrs = .list (strs.map .str) ∧
      ((strs.map Val.str).map (decodeAttr side argument)).Perm
        (attrs.items.flatMap fun item => item.2.map fun val =>
          side.change item.1 (.str val.pyStr)) := by
  refine ⟨_, rfl, ?_⟩
  rw [List.map_map]
  refine (List.Perm.map _ (pySortedStr_perm _)).trans ?_
  rw [List.map_flatMap]
  refine List.Perm.of_eq (List.flatMap_congr fun item hitem => ?_)
  rw [List.map_map]
  refine List.map_congr_left fun val _ => ?_
  have hkey := hkeys item.1 item.2 (Dict.mem_items_iff.mp hitem)
  simp [decodeAttr, splitAttr_append hkey]

theorem decodeBaseEntry_of_ne {key : String} (hall : key ≠ "all")
    (hadd : key ≠ "addattr") (hdel : key ≠ "delattr") (val : Val) :
    decodeBaseEntry (key, val) = [.set key val] := by
  unfold decodeBaseEntry
  split <;> simp_all

/-- The keys of an item's scalars are no fixed entries of a request. -/
def BaseItem.Plain (item : BaseItem) : Prop :=
  (∀ key vals, item.addattr.lookup key = some vals → '=' ∉ key.toList) ∧
  (∀ key vals, item.delattr.lookup key = some vals → '=' ∉ key.toList) ∧
  ∀ key val, item.scalars.lookup key = some val →
    key ≠ "all" ∧ key ≠ "addattr" ∧ key ≠ "delattr"

theorem decodeBase_insert {item : Dict String Val} {key : String}
    (hkey : item.lookup key = none) (val : Val) :
    decodeBase (item.insert key val) =
      decodeBaseEntry (key, val) ++ decodeBase item := by
  rw [decodeBase, Dict.items_insert (AList.lookup_eq_none.mp hkey),
    List.flatMap_cons, decodeBase]

/-- Putting the rewritten strings of one side into the item. -/
theorem decodeBase_insert_attrs (side : Side) (argument : String)
    (hargument : ∀ vs, decodeBaseEntry (argument, .list vs) =
      vs.map (decodeAttr side argument))
    {item : Dict String Val} (hitem : item.lookup argument = none)
    {attrs : Dict String (List Atom)}
    (hattrs : ∀ key vals, attrs.lookup key = some vals → '=' ∉ key.toList) :
    (decodeBase (if attrs.isEmpty then item
      else item.insert argument (rewriteListChanges attrs))).Perm
      ((attrs.items.flatMap fun entry => entry.2.map fun val =>
        side.change entry.1 (.str val.pyStr)) ++ decodeBase item) := by
  cases hempty : attrs.isEmpty with
  | true =>
      have hitems : attrs.items = [] := by
        rw [Dict.items, List.isEmpty_iff.mp hempty, List.map_nil]
      simp [hitems]
  | false =>
      obtain ⟨strs, hstrs, hperm⟩ :=
        decode_rewriteListChanges side argument hattrs
      rw [if_neg (by simp), decodeBase_insert hitem, hstrs, hargument]
      exact hperm.append_right _

/-- The base request asks for the changes of its item. -/
theorem decodeBase_modRewriteListChanges {item : BaseItem}
    (hplain : item.Plain) :
    (decodeBase (modRewriteListChanges item)).Perm
      ((item.delattr.items.flatMap fun entry => entry.2.map fun val =>
        .del entry.1 (.str val.pyStr)) ++
      ((item.addattr.items.flatMap fun entry => entry.2.map fun val =>
        .add entry.1 (.str val.pyStr)) ++
      item.scalars.items.map fun entry => .set entry.1 entry.2)) := by
  obtain ⟨hadd, hdel, hscalars⟩ := hplain
  have hfixed : ∀ key, key = "all" ∨ key = "addattr" ∨ key = "delattr" →
      item.scalars.lookup key = none := by
    intro key hkey
    by_contra hval
    obtain ⟨val, hval⟩ := Option.ne_none_iff_exists'.mp hval
    have hne := hscalars key val hval
    rcases hkey with rfl | rfl | rfl
    · exact hne.1 rfl
    · exact hne.2.1 rfl
    · exact hne.2.2 rfl
  have hsets : decodeBase item.scalars =
      item.scalars.items.map fun entry => .set entry.1 entry.2 := by
    rw [decodeBase, List.map_eq_flatMap]
    refine List.flatMap_congr fun entry hentry => ?_
    obtain ⟨hall, hne, hne'⟩ :=
      hscalars entry.1 entry.2 (Dict.mem_items_iff.mp hentry)
    exact decodeBaseEntry_of_ne hall hne hne' entry.2
  have hadded := decodeBase_insert_attrs .add "addattr" (fun _ => rfl)
    (hfixed "addattr" (by simp)) hadd
  have hnodelattr : (if item.addattr.isEmpty then item.scalars
      else item.scalars.insert "addattr"
        (rewriteListChanges item.addattr)).lookup "delattr" = none := by
    split
    · exact hfixed _ (by simp)
    · rw [AList.lookup_insert_ne (by decide)]
      exact hfixed _ (by simp)
  have hdeleted := decodeBase_insert_attrs .del "delattr" (fun _ => rfl)
    hnodelattr hdel
  rw [modRewriteListChanges, decodeBase_insert]
  · rw [hsets] at hadded
    exact hdeleted.trans (hadded.append_left _)
  · split <;> split <;>
      simp only [ne_eq, String.reduceEq, not_false_eq_true,
        AList.lookup_insert_ne, hfixed "all" (by simp)]

/-! ## Requests of the dedicated methods -/

/-- The arguments of a route have distinct names, and a route whose values
are a request name has a single argument. -/
def Route.WellFormed (route : Route) : Prop :=
  (route.args.map Prod.fst).Nodup ∧ "all" ∉ route.args.map Prod.fst ∧
    (route.encoding = .extraName → route.args.length = 1)

instance (route : Route) : Decidable route.WellFormed :=
  inferInstanceAs (Decidable (_ ∧ _ ∧ _))

theorem routes_wellFormed (cl : Client) :
    ∀ entry ∈ cl.routes, entry.2.WellFormed := by
  cases cl <;> decide

/-- The method of a route determines it. -/
theorem routeOf_method (cl : Client) :
    ∀ entry ∈ cl.routes, cl.routeOf entry.2.method = some entry.2 := by
  cases cl <;> decide

/-- The changes of a diff that a route takes. -/
def Route.changes (route : Route) (diffs : Changes) : List Change :=
  route.args.flatMap fun arg =>
    ((diffs.side route.side).lookup arg.2).toList.flatMap fun vals =>
      vals.map (route.side.change arg.2)

theorem Route.decodeValues_encode (route : Route) (key : String)
    (vals : List Atom) :
    (route.decodeValues key (route.encoding.encode vals)).Perm
      (vals.map (route.side.change key)) := by
  unfold Route.decodeValues
  cases route.encoding with
  | plain | extraName | base64 =>
      simp [Encoding.encode, Encoding.decode, Function.comp_def]
  | sorted =>
      simpa [Encoding.encode, Encoding.decode, Function.comp_def] using
        (pySorted_perm vals).map (route.side.change key)

theorem Route.changedArgs_nodup {route : Route} (hwf : route.WellFormed)
    (diffs : Changes) : ((route.changedArgs diffs).map Prod.fst).Nodup := by
  refine hwf.1.sublist ?_
  rw [changedArgs]
  induction route.args with
  | nil => simp
  | cons arg rest ih =>
      cases harg : (diffs.side route.side).lookup arg.2 with
      | none => simpa [harg] using ih.trans (List.sublist_cons_self _ _)
      | some vals => simpa [harg] using ih.cons_cons arg.1

/-- The entry of a changed argument asks for the changes of its attribute. -/
theorem Route.decodeEntry_encode {route : Route} (hwf : route.WellFormed)
    {arg : String × String} (harg : arg ∈ route.args) (vals : List Atom) :
    (route.decodeEntry (arg.1, route.encoding.encode vals)).Perm
      (vals.map (route.side.change arg.2)) := by
  have hall : arg.1 ≠ "all" := by
    intro heq
    exact hwf.2.1 (heq ▸ List.mem_map_of_mem harg)
  rw [decodeEntry, if_neg hall, Dict.lookup_of_mem hwf.1 harg]
  exact route.decodeValues_encode arg.2 vals

/-- A route's request asks for the changes the route takes. -/
theorem Route.decode_request {route : Route} (hwf : route.WellFormed)
    {diffs : Changes} (hchanges : route.hasChanges diffs = true)
    (name : List Val) :
    (route.decode (route.request name diffs)).Perm (route.changes diffs) := by
  have hall : ∀ item : Dict String Val, item.lookup "all" = none →
      (Dict.items (item.insert "all" (.bool true))).flatMap
        route.decodeEntry = item.items.flatMap route.decodeEntry := by
    intro item hitem
    rw [Dict.items_insert (AList.lookup_eq_none.mp hitem),
      List.flatMap_cons]
    rfl
  by_cases hextra : route.encoding = .extraName
  · obtain ⟨arg, harg⟩ := List.length_eq_one_iff.mp (hwf.2.2 hextra)
    obtain ⟨vals, hvals⟩ : ∃ vals,
        (diffs.side route.side).lookup arg.2 = some vals := by
      simpa [Route.hasChanges_iff, harg] using hchanges
    have hvalues := route.decodeValues_encode arg.2 vals
    rw [hextra] at hvalues
    have hitem : (Dict.items (AList.singleton "all" (Val.bool true))).flatMap
        route.decodeEntry = [] := rfl
    simpa [Route.decode, Route.request, hextra, Route.changedArgs, harg, hvals,
      hitem, Route.changes, Encoding.encode] using hvalues
  · have hdecode : ∀ r, route.decode r =
        r.item.items.flatMap route.decodeEntry := by
      intro r
      unfold Route.decode
      split <;> simp_all
    have hrequest : (route.request name diffs).item =
        (Dict.ofKeys ((route.changedArgs diffs).map Prod.fst) fun arg =>
          ((route.changedArgs diffs).lookup arg).map
            route.encoding.encode).insert "all" (.bool true) := by
      unfold Route.request
      dsimp only
      split <;> simp_all
    have hitems : (Dict.ofKeys ((route.changedArgs diffs).map Prod.fst)
        fun arg => ((route.changedArgs diffs).lookup arg).map
          route.encoding.encode).items =
        (route.changedArgs diffs).map fun arg =>
          (arg.1, route.encoding.encode arg.2) := by
      rw [Dict.items_ofKeys (Route.changedArgs_nodup hwf diffs),
        List.filterMap_map, ← List.filterMap_eq_map']
      refine List.filterMap_congr fun arg harg => ?_
      simp [Dict.lookup_of_mem (Route.changedArgs_nodup hwf diffs) harg]
    have hnone : (Dict.ofKeys ((route.changedArgs diffs).map Prod.fst)
        fun arg => ((route.changedArgs diffs).lookup arg).map
          route.encoding.encode).lookup "all" = none := by
      rw [Dict.lookup_ofKeys, if_neg]
      intro hmem
      obtain ⟨arg, harg, heq⟩ := List.mem_map.mp hmem
      obtain ⟨arg', harg', hchanged⟩ := List.mem_filterMap.mp harg
      obtain ⟨vals, -, rfl⟩ := Option.map_eq_some_iff.mp hchanged
      exact hwf.2.1 (List.mem_map.mpr ⟨arg', harg', heq⟩)
    rw [hdecode, hrequest, hall _ hnone, hitems, List.flatMap_map,
      Route.changedArgs, List.filterMap_eq_flatMap_toList, List.flatMap_assoc,
      Route.changes]
    refine List.Perm.flatMap_left _ fun arg harg => ?_
    cases (diffs.side route.side).lookup arg.2 with
    | none => simp
    | some vals => simpa using Route.decodeEntry_encode hwf harg vals

end FreeipaProv

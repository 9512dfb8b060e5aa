import FreeipaProv.ListServer

/-!
# The canonical principal

The principal names of a user or a service include the canonical one, which
no task may add or remove.  The two clients take it off the list they compare
in ways of their own: the user client looks for the canonical name of the
reply and then strips the realms, the service client looks for the name the
task gives.
-/

namespace FreeipaProv

open Fallible

/-! ## Principal names -/

theorem krbprincipalAlias_qualified {name realm : String}
    (hname : '@' ∉ name.toList) (hrealm : '@' ∉ realm.toList) :
    krbprincipalAlias (name ++ "@" ++ realm) = name := by
  have hchars : (name ++ "@" ++ realm).toList =
      name.toList ++ '@' :: realm.toList := by
    simp
  have hall : ∀ c ∈ name.toList, decide (c ≠ '@') = true := by
    intro c hc
    rw [decide_eq_true_eq]
    rintro rfl
    exact hname hc
  have hdrop : (name.toList ++ '@' :: realm.toList).dropWhile (· ≠ '@') =
      '@' :: realm.toList := by
    rw [List.dropWhile_append_of_pos hall]
    rfl
  have htake : (name.toList ++ '@' :: realm.toList).takeWhile (· ≠ '@') =
      name.toList := by
    rw [List.takeWhile_append_of_pos hall]
    simp
  rw [krbprincipalAlias, hchars, hdrop, htake]
  simp [hrealm]

theorem removeFirst_strs (canonical : String) (princs : List String) :
    removeFirst (.str canonical) (princs.map .str) =
      (princs.erase canonical).map .str := by
  induction princs with
  | nil => rfl
  | cons princ rest ih =>
      rw [List.map_cons, removeFirst, List.erase_cons]
      by_cases heq : princ = canonical
      · simp [heq]
      · simp [heq, ih]

/-- A list is not a member of a list of strings. -/
theorem removeFirst_list (vs : List Val) (princs : List String) :
    removeFirst (.list vs) (princs.map .str) = princs.map .str := by
  induction princs with
  | nil => rfl
  | cons princ rest ih =>
      rw [List.map_cons, removeFirst, ih]
      rfl

theorem mapM_krbprincipalAliasVal (princs : List String) :
    (princs.map Val.str).mapM krbprincipalAliasVal =
      .ok ((princs.map krbprincipalAlias).map .str) := by
  induction princs with
  | nil => rfl
  | cons princ rest ih =>
      rw [List.map_cons, List.mapM_cons, ih]
      rfl

theorem strs_of_forall {vs : List Val} (hstrs : ∀ v ∈ vs, ∃ s, v = .str s) :
    ∃ ss : List String, vs = ss.map .str := by
  induction vs with
  | nil => exact ⟨[], rfl⟩
  | cons v rest ih =>
      obtain ⟨s, rfl⟩ := hstrs v List.mem_cons_self
      obtain ⟨ss, hss⟩ := ih fun v hv => hstrs v (List.mem_cons_of_mem _ hv)
      exact ⟨s :: ss, by rw [hss, List.map_cons]⟩

/-- The value names the canonical principal, with or without its realm. -/
def NamesCanonical (canonical : String) (a : Atom) : Prop :=
  a = .str canonical ∨ a = .str (krbprincipalAlias canonical)

/-- A principal as the client compares it with those of the task. -/
def Client.comparedPrincipal (cl : Client) (princ : String) : String :=
  match cl with
  | .user => krbprincipalAlias princ
  | _ => princ

/-- The client looks for the canonical principal under its own name: the user
client where the reply has it as a string, the service client where the task
gives it in full. -/
def Client.ReadsCanonical (cl : Client) (m : AnsibleModule)
    (item : Dict String Val) (canonical : String) : Prop :=
  match cl with
  | .user => item.lookup "krbcanonicalname" = some (.str canonical)
  | _ => m.params.lookup "krbcanonicalname" = some (.str canonical)

theorem Client.namesCanonical_compared (cl : Client) (canonical : String) :
    NamesCanonical canonical (.str (cl.comparedPrincipal canonical)) := by
  unfold Client.comparedPrincipal
  split
  · exact Or.inr rfl
  · exact Or.inl rfl

/-- A reply object with its principals, of which one is canonical; its other
attributes can be cleaned. -/
structure PrincipalReply (cl : Client) (item : Dict String Val)
    (canonical : String) (princs : List String) : Prop where
  listed : item.lookup "krbprincipalname" = some (.list (princs.map .str))
  nodup : princs.Nodup
  canonical_mem : canonical ∈ princs
  named : item.lookup "krbcanonicalname" = some (.str canonical) ∨
    item.lookup "krbcanonicalname" = some (.list [.str canonical])
  others : ∀ key type raw, cl.cls.paramType key = some type →
    item.lookup key = some raw → ∃ cleaned, cleanValue type raw = .ok cleaned
  certs : cl = .user → ∀ raw, item.lookup "usercertificate" = some raw →
    ∃ vs, raw = .list vs

/-! ## What the clients leave on the list -/

theorem cleanValue_list_isOk (raw : Val) :
    ∃ cleaned, cleanValue .list raw = .ok cleaned := by
  unfold cleanValue
  split
  · split <;> exact ⟨_, rfl⟩
  · contradiction

/-- Strings on the list, once cleaned. -/
theorem strsValue_cleaned (ss : List String) :
    StrsValue (Dict.stepValue (cleanValue .list (.list (ss.map .str))))
      {s | s ∈ ss} :=
  ApiList.cleaned (.listed fun _ => Iff.rfl)

section Left

variable {m : AnsibleModule} {item : Dict String Val} {canonical : String}
  {princs : List String}

theorem PrincipalReply.userCertificate
    (hreply : PrincipalReply .user item canonical princs) :
    ∃ certs, userMungeResponseUsercertificate item = .ok certs ∧
      (∀ key, key ≠ "usercertificate" →
        certs.lookup key = item.lookup key) ∧
      ∀ raw, certs.lookup "usercertificate" = some raw →
        ∃ vs, item.lookup "usercertificate" = some (.list vs) ∧
          raw = .list (vs.map unwrapBase64) := by
  unfold userMungeResponseUsercertificate
  cases hcerts : item.lookup "usercertificate" with
  | none =>
      refine ⟨item, rfl, fun _ _ => rfl, fun raw hraw => ?_⟩
      rw [hcerts] at hraw
      contradiction
  | some raw =>
      obtain ⟨vs, rfl⟩ := hreply.certs rfl raw hcerts
      refine ⟨item.insert "usercertificate" (.list (vs.map unwrapBase64)),
        rfl, fun key hkey => AList.lookup_insert_ne hkey, fun raw' hraw => ?_⟩
      rw [AList.lookup_insert] at hraw
      exact ⟨vs, rfl, (Option.some.inj hraw).symm⟩

/-- The user client takes the canonical name off where the reply has it as a
string. -/
theorem PrincipalReply.user_munged
    (hreply : PrincipalReply .user item canonical princs) :
    ∃ munged left, userMungeResponse item = userClass.mungeResponse munged ∧
      munged.lookup "krbprincipalname" =
        some (.list ((left.map krbprincipalAlias).map .str)) ∧
      (∀ key, key ≠ "usercertificate" → key ≠ "krbprincipalname" →
        munged.lookup key = item.lookup key) ∧
      (∀ raw, munged.lookup "usercertificate" = some raw →
        ∃ vs, item.lookup "usercertificate" = some (.list vs) ∧
          raw = .list (vs.map unwrapBase64)) ∧
      ((item.lookup "krbcanonicalname" = some (.str canonical) ∧
          left = princs.erase canonical) ∨
        (item.lookup "krbcanonicalname" ≠ some (.str canonical) ∧
          left = princs)) := by
  obtain ⟨certs, hcerts, hlookup, hunwrapped⟩ := hreply.userCertificate
  have hlisted : certs.lookup "krbprincipalname" =
      some (.list (princs.map .str)) := by
    rw [hlookup _ (by decide), hreply.listed]
  have hnamed : certs.lookup "krbcanonicalname" =
      item.lookup "krbcanonicalname" := hlookup _ (by decide)
  have hmunged : ∃ left, userMungeResponseKrbprincipalname certs =
        .ok (certs.insert "krbprincipalname"
          (.list ((left.map krbprincipalAlias).map .str))) ∧
      ((item.lookup "krbcanonicalname" = some (.str canonical) ∧
          left = princs.erase canonical) ∨
        (item.lookup "krbcanonicalname" ≠ some (.str canonical) ∧
          left = princs)) := by
    unfold userMungeResponseKrbprincipalname
    rcases hreply.named with hname | hname
    · refine ⟨princs.erase canonical, ?_, Or.inl ⟨hname, rfl⟩⟩
      rw [hlisted, hnamed, hname]
      change (do
        let aliases ← (removeFirst (.str canonical) (princs.map .str)).mapM
          krbprincipalAliasVal
        _) = _
      rw [removeFirst_strs, mapM_krbprincipalAliasVal, ok_bind]
    · refine ⟨princs, ?_, Or.inr ⟨by simp [hname], rfl⟩⟩
      rw [hlisted, hnamed, hname]
      change (do
        let aliases ← (removeFirst (.list [.str canonical])
          (princs.map .str)).mapM krbprincipalAliasVal
        _) = _
      rw [removeFirst_list, mapM_krbprincipalAliasVal, ok_bind]
  obtain ⟨left, hmunged, hleft⟩ := hmunged
  refine ⟨_, left, by rw [userMungeResponse, hcerts, ok_bind, hmunged,
    ok_bind], AList.lookup_insert _, ?_, ?_, hleft⟩
  · intro key hcert hprinc
    rw [AList.lookup_insert_ne hprinc, hlookup key hcert]
  · intro raw hraw
    rw [AList.lookup_insert_ne (by decide)] at hraw
    exact hunwrapped raw hraw

theorem PrincipalReply.user_current
    (hreply : PrincipalReply .user item canonical princs) :
    ∃ current left, userMungeResponse item = .ok current ∧
      StrsValue (current.lookup "krbprincipalname")
        {s | s ∈ left.map krbprincipalAlias} ∧
      ((item.lookup "krbcanonicalname" = some (.str canonical) ∧
          left = princs.erase canonical) ∨
        (item.lookup "krbcanonicalname" ≠ some (.str canonical) ∧
          left = princs)) := by
  obtain ⟨munged, left, hmunged, hlisted, hlookup, -, hleft⟩ :=
    hreply.user_munged
  have hclean : ∃ cleaned, userClass.clean munged = .ok cleaned := by
    refine Dict.traverse_isOk_iff.mpr fun key raw hraw => ?_
    cases htype : userClass.paramType key with
    | none => exact ⟨none, rfl⟩
    | some type =>
        by_cases hlist : type = .list
        · subst hlist
          exact cleanValue_list_isOk raw
        · have hne : key ≠ "krbprincipalname" := by
            rintro rfl
            exact hlist (Option.some.inj htype).symm
          have hne' : key ≠ "usercertificate" := by
            rintro rfl
            exact hlist (Option.some.inj htype).symm
          rw [hlookup key hne' hne] at hraw
          exact hreply.others key type raw htype hraw
  obtain ⟨cleaned, hcleaned⟩ := hclean
  have hcurrent : userClass.mungeResponse munged =
      .ok (userClass.mungePopRequestKeys cleaned) := by
    simp [ClientClass.mungeResponse, hcleaned]
  refine ⟨userClass.mungePopRequestKeys cleaned, left, ?_, ?_, hleft⟩
  · rw [hmunged, hcurrent]
  · have hkey := ClientClass.lookup_mungeResponse hcurrent "krbprincipalname"
    rw [hkey, if_neg (by decide), ClientClass.cleanedAt, hlisted]
    exact strsValue_cleaned _

/-- The current principals of a service: the name the task gives must be on
the list, and is taken off. -/
theorem PrincipalReply.service_current
    (hreply : PrincipalReply .service item canonical princs) {text : String}
    (htext : m.params.lookup "krbcanonicalname" = some (.str text)) :
    (text ∈ princs → ∃ current, serviceMungeResponse m item = .ok current ∧
      StrsValue (current.lookup "krbprincipalname")
        {s | s ∈ princs.erase text}) ∧
    (text ∉ princs → serviceMungeResponse m item = .error .valueError) := by
  have hclean : ∃ cleaned, serviceClass.clean item = .ok cleaned := by
    refine Dict.traverse_isOk_iff.mpr fun key raw hraw => ?_
    cases htype : serviceClass.paramType key with
    | none => exact ⟨none, rfl⟩
    | some type => exact hreply.others key type raw htype hraw
  obtain ⟨cleaned, hcleaned⟩ := hclean
  have hitem : serviceClass.mungeResponse item =
      .ok (serviceClass.mungePopRequestKeys cleaned) := by
    simp [ClientClass.mungeResponse, hcleaned]
  have hne : princs ≠ [] := List.ne_nil_of_mem hreply.canonical_mem
  have hlisted : (serviceMungeResponseUsercertificate
      (serviceClass.mungePopRequestKeys cleaned)).lookup "krbprincipalname" =
      some (.list (princs.map .str)) := by
    rw [lookup_serviceMungeResponseUsercertificate _ (by decide),
      ClientClass.lookup_mungeResponse hitem, if_neg (by decide),
      ClientClass.cleanedAt, hreply.listed]
    change Dict.stepValue (cleanValue .list (.list (princs.map .str))) = _
    rw [cleanValue_list_strs, if_neg hne]
    rfl
  have hmember : (princs.map Val.str).any (fun v => v.pyEq (.str text)) =
      decide (text ∈ princs) := by
    rw [Bool.eq_iff_iff]
    simp
  have hmunge : serviceMungeResponse m item =
      serviceMungeResponseKrbprincipalname m
        (serviceMungeResponseUsercertificate
          (serviceClass.mungePopRequestKeys cleaned)) := by
    rw [serviceMungeResponse, hitem, ok_bind]
  rw [hmunge]
  generalize serviceMungeResponseUsercertificate
    (serviceClass.mungePopRequestKeys cleaned) = response at hlisted ⊢
  unfold serviceMungeResponseKrbprincipalname
  rw [hlisted, htext]
  simp only [Val.iter, ok_bind, Option.getD_some, hmember, decide_eq_true_eq,
    removeFirst_strs, List.isEmpty_map]
  constructor
  · intro hmem
    rw [if_pos hmem]
    cases hleft : princs.erase text with
    | nil =>
        refine ⟨response.erase "krbprincipalname", rfl, Or.inl ⟨?_, ?_⟩⟩
        · exact AList.lookup_erase _ _
        · simp
    | cons princ rest =>
        refine ⟨response.insert "krbprincipalname"
          (.list ((princ :: rest).map .str)), rfl,
          Or.inr ⟨princ :: rest, ?_, fun s => Iff.rfl⟩⟩
        exact AList.lookup_insert _
  · intro hmem
    rw [if_neg hmem]

end Left

/-! ## The canonical principal is kept -/

section Kept

variable {cl : Client} {m : AnsibleModule} {item current : Dict String Val}
  {canonical : String} {princs : List String}

/-- The task of a service names it, with or without its realm. -/
def AnsibleModule.NamesService (m : AnsibleModule) (canonical : String) :
    Prop :=
  ∃ text, m.params.lookup "krbcanonicalname" = some (.str text) ∧
    (text = canonical ∨ ∃ realm, canonical = text ++ "@" ++ realm)

/-- What is left on the list: without the canonical principal where the client
reads its name, with it otherwise. -/
theorem PrincipalReply.members_current (hcl : cl = .user ∨ cl = .service)
    (hreply : PrincipalReply cl item canonical princs)
    (htask : cl = .service → m.NamesService canonical)
    (hok : cl.mungeResponse m item = .ok current) :
    ∃ left, (∀ a, a ∈ cl.cls.members current "krbprincipalname" ↔
        ∃ princ ∈ left, a = .str (cl.comparedPrincipal princ)) ∧
      ((cl.ReadsCanonical m item canonical ∧ left = princs.erase canonical) ∨
        (¬cl.ReadsCanonical m item canonical ∧ canonical ∈ left)) := by
  rcases hcl with rfl | rfl
  · obtain ⟨current', left, hcurrent, hstrs, hleft⟩ := hreply.user_current
    obtain rfl := Except.ok.inj (hcurrent.symm.trans hok)
    refine ⟨left, fun a => ?_, ?_⟩
    · rw [Client.members_of_strs rfl hstrs]
      simp [Client.comparedPrincipal]
    · rcases hleft with ⟨hreads, rfl⟩ | ⟨hreads, rfl⟩
      · exact Or.inl ⟨hreads, rfl⟩
      · exact Or.inr ⟨hreads, hreply.canonical_mem⟩
  · obtain ⟨text, htext, -⟩ := htask rfl
    obtain ⟨hmunged, hraises⟩ := hreply.service_current htext
    have hmem : text ∈ princs := by
      by_contra hmem
      have herror : serviceMungeResponse m item = .ok current := hok
      rw [hraises hmem] at herror
      contradiction
    obtain ⟨current', hcurrent, hstrs⟩ := hmunged hmem
    obtain rfl := Except.ok.inj (hcurrent.symm.trans hok)
    refine ⟨princs.erase text, fun a => ?_, ?_⟩
    · rw [Client.members_of_strs rfl hstrs]
      rfl
    · by_cases heq : text = canonical
      · subst heq
        exact Or.inl ⟨htext, rfl⟩
      · refine Or.inr ⟨fun hreads => ?_, ?_⟩
        · have hsame : m.params.lookup "krbcanonicalname" =
              some (.str canonical) := hreads
          rw [htext] at hsame
          injection hsame with hsame
          injection hsame with hsame
          injection hsame with hsame
          exact heq hsame
        · exact (List.mem_erase_of_ne (Ne.symm heq)).mpr
            hreply.canonical_mem

theorem PrincipalReply.mungeResponse_isOk (hcl : cl = .user ∨ cl = .service)
    (hreply : PrincipalReply cl item canonical princs)
    (hreads : cl.ReadsCanonical m item canonical) :
    ∃ current, cl.mungeResponse m item = .ok current := by
  rcases hcl with rfl | rfl
  · obtain ⟨current, -, hcurrent, -⟩ := hreply.user_current
    exact ⟨current, hcurrent⟩
  · obtain ⟨current, hcurrent, -⟩ :=
      (hreply.service_current hreads).1 hreply.canonical_mem
    exact ⟨current, hcurrent⟩

theorem mem_members_of_listDel {cls : ClientClass} {state : State}
    {desired : Dict String Val} {diffs : Changes} {key : String}
    (hok : cls.computeChanges state desired current = .ok diffs)
    (hstrs : ∀ a ∈ cls.members current key, ∃ s, a = .str s)
    {vals : List Atom} (hvals : diffs.listDel.lookup key = some vals)
    {a : Atom} (ha : a ∈ vals) : a ∈ cls.members current key := by
  rw [ClientClass.lookup_listDel hok, nonempty_eq_some_iff] at hvals
  obtain ⟨rfl, -⟩ := hvals
  cases state with
  | exact => exact List.mem_of_mem_filter ha
  | absent =>
      obtain ⟨b, hb, heq⟩ := List.any_eq_true.mp (List.mem_filter.mp ha).2
      obtain ⟨s, rfl⟩ := hstrs b hb
      rw [Atom.str_pyEq, decide_eq_true_eq] at heq
      rwa [heq]
  | present | enabled | disabled => contradiction

theorem del_not_mem_decode_rem (cl : Client) {r : Request}
    (hmethod : r.method = cl.method .rem) (key : String) (a : Atom) :
    .del key a ∉ cl.decode r := by
  have hroute : cl.routeOf (cl.method .rem) = none := by
    cases cl <;> decide
  rw [Client.decode, hmethod, if_neg (by
    rintro (h | h)
    · exact (remMethod_ne cl).1 h
    · exact (remMethod_ne cl).2 h), hroute]
  simp

theorem FindSteps.listDel_of_decode {reply : FindReply} {found : Found}
    (steps : FindSteps cl m reply found item) {q : Queue}
    (hqueue : cl.queueRequests m found = .ok q) {entry : QueueEntry}
    (hentry : entry ∈ q.entries) {key : String} {a : Atom}
    (hdel : .del key a ∈ cl.decode entry.request) :
    ∃ b vals, found.diffs.listDel.lookup key = some vals ∧ b ∈ vals ∧
      cl.wire key b = a := by
  by_cases hends : cl.remEnds m found = true
  · exact absurd hdel (del_not_mem_decode_rem cl
      (method_of_remEnds hends hqueue hentry) key a)
  · rw [Bool.not_eq_true] at hends
    have hchange := steps.mem_managedChanges hends hqueue hentry hdel
    rcases Client.mem_managedChanges.mp hchange with
      ⟨side, key', b, -, ⟨vals, hvals, hb⟩, heq⟩ | ⟨key', val, -, -, heq⟩
    · cases side with
      | add => contradiction
      | del =>
          injection heq with hkey hwire
          subst hkey
          exact ⟨b, vals, hvals, hb, hwire⟩
    · contradiction

/-- The client takes in the reply and takes the canonical principal off the
list, and no alias; so no diff and no request of a run removes it.  This holds
exactly when the client looks for the canonical principal under its own name
and no alias, as the client compares it, is a name of it. -/
theorem canonical_kept_iff (hcl : cl = .user ∨ cl = .service)
    (hreply : PrincipalReply cl item canonical princs)
    (htask : cl = .service → m.NamesService canonical) :
    (∃ current, cl.mungeResponse m item = .ok current ∧
      (∀ a, a ∈ cl.cls.members current "krbprincipalname" ↔
        ∃ princ ∈ princs, princ ≠ canonical ∧
          a = .str (cl.comparedPrincipal princ)) ∧
      (∀ a ∈ cl.cls.members current "krbprincipalname",
        ¬NamesCanonical canonical a) ∧
      (∀ state desired diffs,
        cl.cls.computeChanges state desired current = .ok diffs →
        ∀ vals, diffs.listDel.lookup "krbprincipalname" = some vals →
          ∀ a ∈ vals, ¬NamesCanonical canonical a) ∧
      ∀ reply found q, cl.findResult m reply = .ok item →
        cl.find m reply = .ok found → cl.queueRequests m found = .ok q →
        ∀ entry ∈ q.entries, ∀ a,
          .del "krbprincipalname" a ∈ cl.decode entry.request →
            ¬NamesCanonical canonical a) ↔
    cl.ReadsCanonical m item canonical ∧
      ∀ princ ∈ princs, princ ≠ canonical →
        ¬NamesCanonical canonical (.str (cl.comparedPrincipal princ)) := by
  constructor
  · rintro ⟨current, hcurrent, hmembers, hkept, -⟩
    obtain ⟨left, hleft, hcases⟩ :=
      hreply.members_current hcl htask hcurrent
    rcases hcases with ⟨hreads, -⟩ | ⟨-, hmem⟩
    · refine ⟨hreads, fun princ hprinc hne => ?_⟩
      exact hkept _ ((hmembers _).mpr ⟨princ, hprinc, hne, rfl⟩)
    · exact absurd (cl.namesCanonical_compared canonical)
        (hkept _ ((hleft _).mpr ⟨canonical, hmem, rfl⟩))
  · rintro ⟨hreads, haliases⟩
    obtain ⟨current, hcurrent⟩ := hreply.mungeResponse_isOk hcl hreads
    obtain ⟨left, hleft, hcases⟩ :=
      hreply.members_current hcl htask hcurrent
    obtain rfl : left = princs.erase canonical := by
      rcases hcases with ⟨-, heq⟩ | ⟨hnot, -⟩
      · exact heq
      · exact absurd hreads hnot
    have hmembers : ∀ a, a ∈ cl.cls.members current "krbprincipalname" ↔
        ∃ princ ∈ princs, princ ≠ canonical ∧
          a = .str (cl.comparedPrincipal princ) := by
      intro a
      rw [hleft]
      simp only [hreply.nodup.mem_erase_iff]
      tauto
    have hkept : ∀ a ∈ cl.cls.members current "krbprincipalname",
        ¬NamesCanonical canonical a := by
      intro a ha
      obtain ⟨princ, hprinc, hne, rfl⟩ := (hmembers a).mp ha
      exact haliases princ hprinc hne
    have hstrs : ∀ a ∈ cl.cls.members current "krbprincipalname",
        ∃ s, a = .str s := by
      intro a ha
      obtain ⟨princ, -, -, rfl⟩ := (hmembers a).mp ha
      exact ⟨_, rfl⟩
    refine ⟨current, hcurrent, hmembers, hkept, ?_, ?_⟩
    · intro state desired diffs hdiffs vals hvals a ha
      exact hkept a (mem_members_of_listDel hdiffs hstrs hvals ha)
    · intro reply found q hitem hfind hqueue entry hentry a hdel
      obtain ⟨item', steps⟩ := Client.find_steps hfind
      obtain rfl := Except.ok.inj (hitem.symm.trans steps.selected)
      obtain rfl := Except.ok.inj (hcurrent.symm.trans steps.current)
      obtain ⟨b, vals, hvals, hb, hwire⟩ :=
        steps.listDel_of_decode hqueue hentry hdel
      have hcert : ¬(cl = .cert ∧ m.state = .absent) := by
        rintro ⟨rfl, -⟩
        rcases hcl with h | h <;> contradiction
      have hmem := mem_members_of_listDel
        (Client.computeChanges_eq steps.diffs hcert) hstrs hvals hb
      obtain ⟨s, rfl⟩ := hstrs b hmem
      rw [wire_str] at hwire
      rw [← hwire]
      exact hkept _ hmem

end Kept

/-- A user in a reply, with an alias and this canonical name. -/
def pinkyItem (named : Val) : Dict String Val := Dict.ofList
  [("uid", .list [.str "pinky"]), ("krbcanonicalname", named),
   ("krbprincipalname",
     .list [.str "pinky@EXAMPLE.COM", .str "narf@EXAMPLE.COM"])] (by simp)

theorem pinkyItem_principals {named : Val}
    (hnamed : named = .str "pinky@EXAMPLE.COM" ∨
      named = .list [.str "pinky@EXAMPLE.COM"]) :
    PrincipalReply .user (pinkyItem named) "pinky@EXAMPLE.COM"
      ["pinky@EXAMPLE.COM", "narf@EXAMPLE.COM"] where
  listed := rfl
  nodup := by decide
  canonical_mem := by decide
  named := by
    rcases hnamed with rfl | rfl
    · exact Or.inl rfl
    · exact Or.inr rfl
  others := by
    intro key type raw htype hraw
    replace hraw := Dict.mem_of_lookup_ofList hraw
    simp only [List.mem_cons, Prod.mk.injEq, List.not_mem_nil, or_false]
      at hraw
    rcases hraw with ⟨rfl, rfl⟩ | ⟨rfl, -⟩ | ⟨rfl, rfl⟩
    · obtain rfl : ParamType.str = type := Option.some.inj htype
      exact ⟨_, rfl⟩
    · contradiction
    · obtain rfl : ParamType.list = type := Option.some.inj htype
      exact cleanValue_list_isOk _
  certs := by
    intro _ raw hraw
    have hnone : (pinkyItem named).lookup "usercertificate" = none := rfl
    rw [hnone] at hraw
    contradiction

/-- A user that is to have no aliases. -/
def pinkyExact : AnsibleModule :=
  userClass.ansibleModule {
    given := Dict.ofList [("uid", .str "pinky")]
    state := .exact }

/-- A canonical name in a list is not found, and the canonical principal is
removed. -/
theorem pinkyExact_removes_canonical :
    ¬∀ (cl : Client) (m : AnsibleModule) (item : Dict String Val)
      (canonical : String) (princs : List String) (reply : FindReply)
      (found : Found) (q : Queue), cl = .user ∨ cl = .service →
      PrincipalReply cl item canonical princs →
      (cl = .service → m.NamesService canonical) →
      cl.findResult m reply = .ok item → cl.find m reply = .ok found →
      cl.queueRequests m found = .ok q → ∀ entry ∈ q.entries, ∀ a,
        .del "krbprincipalname" a ∈ cl.decode entry.request →
          ¬NamesCanonical canonical a := by
  intro hkept
  have hqueue : ∃ found q entry, Client.user.find pinkyExact
        (.ofList [pinkyItem (.list [.str "pinky@EXAMPLE.COM"])]) =
        .ok found ∧
      Client.user.queueRequests pinkyExact found = .ok q ∧
      q.entries = [entry] ∧
      Client.user.decode entry.request =
        [.del "krbprincipalname" (.str "pinky"),
         .del "krbprincipalname" (.str "narf")] :=
    ⟨_, _, _, rfl, rfl, rfl, rfl⟩
  obtain ⟨found, q, entry, hfind, hqueue, hentries, hdecode⟩ := hqueue
  have hnames : NamesCanonical "pinky@EXAMPLE.COM" (.str "pinky") :=
    Or.inr rfl
  refine hkept .user pinkyExact _ _ _ _ found q (Or.inl rfl)
    (pinkyItem_principals (Or.inr rfl)) (fun h => by contradiction) rfl hfind
    hqueue entry (by simp [hentries]) (.str "pinky") ?_ hnames
  rw [hdecode]
  exact List.mem_cons_self

theorem pinkyExact_kept_iff :
    ∃ current, Client.user.mungeResponse pinkyExact
        (pinkyItem (.str "pinky@EXAMPLE.COM")) = .ok current ∧
      ∀ a ∈ userClass.members current "krbprincipalname",
        ¬NamesCanonical "pinky@EXAMPLE.COM" a := by
  obtain ⟨current, hcurrent, -, hkept, -⟩ := (canonical_kept_iff
    (m := pinkyExact) (Or.inl rfl) (pinkyItem_principals (Or.inl rfl))
    (fun h => by contradiction)).mpr ⟨rfl, by
      intro princ hprinc hne
      simp only [List.mem_cons, List.not_mem_nil, or_false] at hprinc
      rcases hprinc with rfl | rfl
      · exact absurd rfl hne
      · have hname : krbprincipalAlias "narf@EXAMPLE.COM" = "narf" := rfl
        have hcanonical :
            krbprincipalAlias "pinky@EXAMPLE.COM" = "pinky" := rfl
        simp [NamesCanonical, Client.comparedPrincipal, hname, hcanonical]⟩
  exact ⟨current, hcurrent, hkept⟩

end FreeipaProv

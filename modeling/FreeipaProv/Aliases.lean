import FreeipaProv.Principals

/-!
# Principal aliases of users

The server writes every alias with its realm, and the user client strips the
realm of the aliases it finds.  It does not strip those of the task, so an
alias that the task writes with its realm is never found, and a second run of
the task asks for it again.
-/

namespace FreeipaProv

open Fallible

/-- A server with the principals of a user, all of one realm.  It always has
the canonical one: a request that would remove that is refused, or carried
out without it, so nothing else is assumed of such a request. -/
structure PrincipalServer (name : List Val) (σ : Type) where
  post : Post σ
  find : σ → FindReply
  view : σ → ObjState
  stored : String → String → String
  realm : String
  canonical : String
  /-- `krbcanonicalname` in a reply. -/
  canonicalName : Val
  realm_plain : '@' ∉ realm.toList
  canonicalName_form : canonicalName = .str canonical ∨
    canonicalName = .list [.str canonical]
  stored_principal : ∀ s, stored "krbprincipalname" s =
    if '@' ∈ s.toList then s else s ++ "@" ++ realm
  updated : ∀ {server server' : σ} {r : Request} {response : Val},
    post server r = .ok (response, server') →
    r.method ≠ Client.user.method .rem → name <+: r.name →
    .del "krbprincipalname" canonical ∉ Client.user.listEdits stored r →
    view server' =
      (view server).applyAll (Client.user.listEdits stored r)
  qualified : ∀ {server : σ} {princ : String},
    princ ∈ (view server).lists "krbprincipalname" →
    ∃ s, '@' ∉ s.toList ∧ princ = s ++ "@" ++ realm
  reply : ∀ server, ∃ item princs,
    (find server).result.getLast? = some item ∧
    PrincipalReply .user item canonical princs ∧
    item.lookup "krbcanonicalname" = some canonicalName ∧
    (∀ princ, princ ∈ princs ↔
      princ ∈ (view server).lists "krbprincipalname") ∧
    (∀ key, Client.user.PlainList key →
      ApiList ((view server).lists key) (item.lookup key)) ∧
    ∀ vs, item.lookup "usercertificate" = some (.list vs) →
      ∀ v ∈ vs, ∃ s, unwrapBase64 v = .str s

/-- The request would take the canonical principal from the user. -/
def PrincipalServer.RemovesCanonical {name : List Val} {σ : Type}
    (srv : PrincipalServer name σ) (r : Request) : Prop :=
  .del "krbprincipalname" srv.canonical ∈ Client.user.listEdits srv.stored r

/-- A run of the task brings the server from one state to the other: it posts
its whole queue, or ends where the server refuses to remove the canonical
principal. -/
def PrincipalServer.Runs {name : List Val} {σ : Type}
    (srv : PrincipalServer name σ) (m : AnsibleModule) (server server' : σ) :
    Prop :=
  ∃ found q before after, Client.user.find m (srv.find server) = .ok found ∧
    Client.user.queueRequests m found = .ok q ∧
    q.entries = before ++ after ∧
    runAll (postEntry srv.post) server before = .ok server' ∧
    ∀ entry rest, after = entry :: rest →
      srv.RemovesCanonical entry.request ∧
        ∃ err, srv.post server' entry.request = .error err

theorem PrincipalServer.runs_of_ensure {name : List Val} {σ : Type}
    {srv : PrincipalServer name σ} {m : AnsibleModule} {server : σ}
    {run : Val × Bool × σ} (hreal : m.checkMode = false)
    (hensure : Client.user.ensure m (srv.find server) srv.post server =
      .ok run) : srv.Runs m server run.2.2 := by
  obtain ⟨found, q, hfind, hqueue, hrun⟩ := ensure_runAll hreal hensure
  exact ⟨found, q, q.entries, [], hfind, hqueue, by simp, hrun,
    fun _ _ hafter => by contradiction⟩

/-- Lists of strings stay hashable. -/
theorem ClientClass.hashableLists_of_strs {cls : ClientClass}
    {item current : Dict String Val}
    (hok : cls.mungeResponse item = .ok current)
    (hstrs : ∀ key raw, cls.paramType key = some .list →
      item.lookup key = some raw →
      ∃ ss : List String, raw = .list (ss.map .str)) :
    cls.HashableLists current := by
  intro key val hval
  rw [lookup_listSlice] at hval
  split_ifs at hval with htype
  rw [lookup_mungeResponse hok] at hval
  split_ifs at hval
  obtain ⟨raw, type, hraw, htype', hclean⟩ := cleanedAt_eq_some hval
  obtain rfl := Option.some.inj (htype.symm.trans htype')
  obtain ⟨ss, rfl⟩ := hstrs key raw htype hraw
  rw [cleanValue_list_strs] at hclean
  split_ifs at hclean
  · simp at hclean
  · obtain rfl := Option.some.inj (Except.ok.inj hclean)
    exact ⟨_, pySet_strs ss⟩

/-- The current lists of a user, where the reply has strings and wrapped
certificates. -/
theorem PrincipalReply.user_hashableLists {item : Dict String Val}
    {canonical : String} {princs : List String}
    (hreply : PrincipalReply .user item canonical princs)
    (hcerts : ∀ vs, item.lookup "usercertificate" = some (.list vs) →
      ∀ v ∈ vs, ∃ s, unwrapBase64 v = .str s)
    (hplain : ∀ key raw, Client.user.PlainList key →
      item.lookup key = some raw →
      ∃ ss : List String, raw = .list (ss.map .str)) :
    ∃ current, userMungeResponse item = .ok current ∧
      userClass.HashableLists current := by
  obtain ⟨munged, left, hmunged, hlisted, hlookup, hunwrapped, -⟩ :=
    hreply.user_munged
  obtain ⟨current, -, hcurrent, -⟩ := hreply.user_current
  refine ⟨current, hcurrent, ?_⟩
  apply ClientClass.hashableLists_of_strs (hmunged.symm.trans hcurrent)
  intro key raw htype hraw
  by_cases hprinc : key = "krbprincipalname"
  · subst hprinc
    exact ⟨_, (Option.some.inj (hlisted.symm.trans hraw)).symm⟩
  by_cases hcert : key = "usercertificate"
  · subst hcert
    obtain ⟨vs, hvs, rfl⟩ := hunwrapped raw hraw
    suffices hstrs : ∀ v ∈ vs.map unwrapBase64, ∃ s, v = .str s by
      obtain ⟨ss, hss⟩ := strs_of_forall hstrs
      exact ⟨ss, by rw [hss]⟩
    intro v hv
    obtain ⟨wrapped, hwrapped, rfl⟩ := List.mem_map.mp hv
    exact hcerts vs hvs wrapped hwrapped
  · rw [hlookup key hcert hprinc] at hraw
    exact hplain key raw ⟨Client.listAttr_of_type htype, hcert, hprinc⟩ hraw

section Server

variable {name : List Val} {σ : Type} (srv : PrincipalServer name σ)

/-- The aliases of the server that the client compares with those of the
task: without realm, and without the canonical principal where the reply has
it as a string. -/
def PrincipalServer.aliases (server : σ) : Set String :=
  {s | '@' ∉ s.toList ∧
    s ++ "@" ++ srv.realm ∈ (srv.view server).lists "krbprincipalname" ∧
    (srv.canonicalName = .str srv.canonical →
      s ++ "@" ++ srv.realm ≠ srv.canonical)}

variable {srv} {m : AnsibleModule} {server : σ} {found : Found}
  {item : Dict String Val}

theorem PrincipalServer.reply_of_steps
    (steps : FindSteps .user m (srv.find server) found item) :
    ∃ princs, PrincipalReply .user item srv.canonical princs ∧
      item.lookup "krbcanonicalname" = some srv.canonicalName ∧
      ∀ princ, princ ∈ princs ↔
        princ ∈ (srv.view server).lists "krbprincipalname" := by
  obtain ⟨item', princs, hlast, hreply, hname, hprincs, -⟩ := srv.reply server
  have hitem := steps.selected
  rw [findResult_eq (by decide) (by decide), hlast, Option.getD_some] at hitem
  obtain rfl := Except.ok.inj hitem
  exact ⟨princs, hreply, hname, hprincs⟩

/-- The principals the client finds are the aliases of the server. -/
theorem PrincipalServer.members_current
    (steps : FindSteps .user m (srv.find server) found item) (a : Atom) :
    a ∈ userClass.members found.responseCleaned "krbprincipalname" ↔
      ∃ s ∈ srv.aliases server, a = .str s := by
  obtain ⟨princs, hreply, hname, hprincs⟩ := srv.reply_of_steps steps
  obtain ⟨current, left, hcurrent, hstrs, hleft⟩ := hreply.user_current
  obtain rfl := Except.ok.inj (hcurrent.symm.trans steps.current)
  have hmem : ∀ princ, princ ∈ left ↔ princ ∈ princs ∧
      (srv.canonicalName = .str srv.canonical → princ ≠ srv.canonical) := by
    intro princ
    rw [hname] at hleft
    rcases hleft with ⟨hread, rfl⟩ | ⟨hread, rfl⟩
    · rw [hreply.nodup.mem_erase_iff, Option.some.inj hread]
      tauto
    · have hnot : srv.canonicalName ≠ .str srv.canonical := fun heq =>
        hread (congrArg some heq)
      simp [hnot]
  change a ∈ Client.user.cls.members _ _ ↔ _
  rw [Client.members_of_strs rfl hstrs]
  refine exists_congr fun s => and_congr_left fun _ => ?_
  rw [Set.mem_ofPred_eq, List.mem_map]
  constructor
  · rintro ⟨princ, hprinc, rfl⟩
    obtain ⟨hprinc, hother⟩ := (hmem princ).mp hprinc
    rw [hprincs] at hprinc
    obtain ⟨s, hs, rfl⟩ := srv.qualified hprinc
    rw [krbprincipalAlias_qualified hs srv.realm_plain]
    exact ⟨hs, hprinc, hother⟩
  · rintro ⟨hs, hprinc, hother⟩
    refine ⟨s ++ "@" ++ srv.realm, ?_,
      krbprincipalAlias_qualified hs srv.realm_plain⟩
    exact (hmem _).mpr ⟨(hprincs _).mpr hprinc, hother⟩

theorem PrincipalServer.find_isOk (t : TypedTask .user)
    (srv : PrincipalServer (userClass.modRequestParams t.ansibleModule) σ)
    (server : σ) :
    ∃ found, Client.user.find t.ansibleModule (srv.find server) =
      .ok found := by
  obtain ⟨item, princs, hlast, hreply, -, -, hlists, hcerts⟩ :=
    srv.reply server
  have hitem : Client.user.findResult t.ansibleModule (srv.find server) =
      .ok item := by
    rw [findResult_eq (by decide) (by decide), hlast]
    rfl
  have hplain : ∀ key raw, Client.user.PlainList key →
      item.lookup key = some raw →
      ∃ ss : List String, raw = .list (ss.map .str) := by
    intro key raw hkey hraw
    have hreported := hlists key hkey
    rw [hraw] at hreported
    cases hreported with
    | listed hmem => exact ⟨_, rfl⟩
  obtain ⟨current, hcurrent, hcurrentLists⟩ :=
    hreply.user_hashableLists hcerts hplain
  obtain ⟨params, hclean⟩ := t.clean_isOk
  obtain ⟨desired, hdesired⟩ :=
    Client.mungeModuleParams_isOk (by decide) hclean
  have hmunged : Client.user.mungeResponse t.ansibleModule item =
      .ok current := hcurrent
  obtain ⟨diffs, hdiffs⟩ := Client.computeChanges_isOk (by decide) hdesired
    hmunged (TypedTask.desired_listsAs hdesired).hashable hcurrentLists
    t.ansibleModule.state
  exact ⟨_, Client.find_of_steps hdesired rfl hitem hmunged hdiffs⟩

end Server

/-! ## A second run -/

/-- The entries of the two principal methods have values to add or remove. -/
theorem listed_of_principalMethod {m : AnsibleModule} {found : Found}
    {q : Queue} (hends : Client.user.remEnds m found = false)
    (hqueue : Client.user.queueRequests m found = .ok q) {entry : QueueEntry}
    (hentry : entry ∈ q.entries) :
    (entry.request.method = "user_add_principal" →
      found.diffs.listAdd.lookup "krbprincipalname" ≠ none) ∧
    (entry.request.method = "user_remove_principal" →
      found.diffs.listDel.lookup "krbprincipalname" ≠ none) := by
  rcases queueEntry_cases hends hqueue hentry with
    ⟨-, hbase⟩ | ⟨-, hflag⟩ | ⟨-, hroute⟩
  · obtain ⟨name, -, hrequest⟩ := Client.baseRequest_eq_ok hbase
    rw [hrequest]
    dsimp only
    split <;>
      exact ⟨fun h => absurd h (by decide), fun h => absurd h (by decide)⟩
  · rcases method_of_mem_flagEntries hflag with hmethod | hmethod <;>
      rw [hmethod] <;>
      exact ⟨fun h => absurd h (by decide), fun h => absurd h (by decide)⟩
  · obtain ⟨marks, route, hmem, hchanges, rfl⟩ :=
      Client.mem_routeEntries.mp hroute
    have hroutes : ∀ entry ∈ Client.user.routes,
        (entry.2.method = "user_add_principal" ∨
          entry.2.method = "user_remove_principal") →
        entry.2.args = [("principal", "krbprincipalname")] ∧
        (entry.2.method = "user_add_principal" → entry.2.side = .add) ∧
        (entry.2.method = "user_remove_principal" → entry.2.side = .del) := by
      decide
    obtain ⟨arg, harg, vals, hvals⟩ := Route.hasChanges_iff.mp hchanges
    have hmethod : ((Client.user.routeEntry m found route).request).method =
        route.method := Route.request_method _ _ _
    rw [hmethod]
    constructor
    · intro hadd
      obtain ⟨hargs, hside, -⟩ := hroutes _ hmem (Or.inl hadd)
      rw [hargs, List.mem_singleton] at harg
      rw [harg, hside hadd] at hvals
      intro hnone
      exact Option.some_ne_none _ (hvals.symm.trans hnone)
    · intro hdel
      obtain ⟨hargs, -, hside⟩ := hroutes _ hmem (Or.inr hdel)
      rw [hargs, List.mem_singleton] at harg
      rw [harg, hside hdel] at hvals
      intro hnone
      exact Option.some_ne_none _ (hvals.symm.trans hnone)

section SecondRun

variable {t : TypedTask .user} {σ : Type}
  {srv : PrincipalServer (userClass.modRequestParams t.ansibleModule) σ}
  {server server' : σ}

theorem PrincipalServer.aliases_inj {s s' : String} (hs : '@' ∉ s.toList)
    (hs' : '@' ∉ s'.toList)
    (heq : s ++ "@" ++ srv.realm = s' ++ "@" ++ srv.realm) : s = s' := by
  rw [← krbprincipalAlias_qualified hs srv.realm_plain, heq,
    krbprincipalAlias_qualified hs' srv.realm_plain]

/-- The aliases a task may ask for: written without realm, and other than the
canonical principal where the client leaves that out.  Where it does not, a
task in state `exact` has to ask for it. -/
structure PrincipalServer.Expects (t : TypedTask .user)
    (srv : PrincipalServer (userClass.modRequestParams t.ansibleModule) σ) :
    Prop where
  bare : ∀ s ∈ t.wants.lists "krbprincipalname", '@' ∉ s.toList
  other : srv.canonicalName = .str srv.canonical →
    ∀ s ∈ t.wants.lists "krbprincipalname",
      s ++ "@" ++ srv.realm ≠ srv.canonical
  listed : t.state = .exact → srv.canonicalName ≠ .str srv.canonical →
    ∃ s ∈ t.wants.lists "krbprincipalname",
      s ++ "@" ++ srv.realm = srv.canonical

theorem PrincipalServer.stored_bare {s : String} (hs : '@' ∉ s.toList) :
    srv.stored "krbprincipalname" s = s ++ "@" ++ srv.realm := by
  rw [srv.stored_principal, if_neg hs]

/-- The queue of such a task does not touch the canonical principal. -/
theorem PrincipalServer.Expects.not_removesCanonical
    (hexpects : PrincipalServer.Expects t srv)
    (hstate : t.state = .present ∨ t.state = .exact)
    (hreal : t.checkMode = false) {found : Found} {item : Dict String Val}
    (steps : FindSteps .user t.ansibleModule (srv.find server) found item)
    {q : Queue}
    (hqueue : Client.user.queueRequests t.ansibleModule found = .ok q)
    {entry : QueueEntry} (hentry : entry ∈ q.entries) :
    ¬srv.RemovesCanonical entry.request := by
  intro hremoves
  have hkey : Client.user.ListAttr "krbprincipalname" :=
    Client.listAttr_of_type rfl
  have hedit : .del "krbprincipalname" srv.canonical ∈
      Client.user.entryListEdits srv.stored q.entries :=
    List.mem_flatMap.mpr ⟨entry, hentry, hremoves⟩
  obtain ⟨s, hs, hstate', hcanonical⟩ := (steps.mem_queueListEdits hreal hkey
    (srv.members_current steps) (t.remEnds_eq_false hstate found) hqueue
    srv.stored srv.canonical).2.mp hedit
  rw [srv.stored_bare hs.1] at hcanonical
  rcases hstate' with ⟨hexact, hnot⟩ | ⟨habsent, -⟩
  · by_cases hname : srv.canonicalName = .str srv.canonical
    · exact hs.2.2 hname hcanonical
    · obtain ⟨s', hs', hsame⟩ := hexpects.listed hexact hname
      exact hnot (srv.aliases_inj (hexpects.bare s' hs') hs.1
        (hsame.trans hcanonical.symm) ▸ hs')
  · exact State.ne_absent hstate habsent

/-- A run of such a task makes its aliases those of the server, on top of the
ones there in state `present`. -/
theorem PrincipalServer.Expects.aliases_run
    (hexpects : PrincipalServer.Expects t srv)
    (hstate : t.state = .present ∨ t.state = .exact)
    (hreal : t.checkMode = false)
    (hruns : srv.Runs t.ansibleModule server server') :
    t.wants.lists "krbprincipalname" ⊆ srv.aliases server' ∧
      (t.state = .exact →
        srv.aliases server' ⊆ t.wants.lists "krbprincipalname") := by
  obtain ⟨found, q, before, after, hfind, hqueue, hsplit, hrun, hrefused⟩ :=
    hruns
  obtain ⟨item, steps⟩ := Client.find_steps hfind
  have hends := t.remEnds_eq_false hstate found
  have hkeeps : ∀ entry ∈ q.entries, ¬srv.RemovesCanonical entry.request :=
    fun entry hentry =>
      hexpects.not_removesCanonical hstate hreal steps hqueue hentry
  -- nothing is refused, so the whole queue is posted
  obtain rfl : after = [] := by
    cases after with
    | nil => rfl
    | cons entry rest =>
        refine absurd (hrefused entry rest rfl).1 (hkeeps entry ?_)
        rw [hsplit]
        exact List.mem_append_right _ List.mem_cons_self
  rw [List.append_nil] at hsplit
  subst hsplit
  have hkey : Client.user.ListAttr "krbprincipalname" :=
    Client.listAttr_of_type rfl
  have hview := view_of_posts (fun entry hentry s s' response hpost => by
    obtain ⟨hmethod, hname⟩ := named_of_queue hends hqueue rfl hentry
    exact srv.updated hpost hmethod hname (hkeeps entry hentry)) hrun
  have hdistinct : ∀ s s', s ∈ t.wants.lists "krbprincipalname" →
      s ∉ srv.aliases server → s' ∈ srv.aliases server →
      srv.stored "krbprincipalname" s ≠ srv.stored "krbprincipalname" s' := by
    intro s s' hs hnot hs' heq
    have hbare := hexpects.bare s hs
    rw [srv.stored_bare hbare, srv.stored_bare hs'.1] at heq
    exact hnot (srv.aliases_inj hbare hs'.1 heq ▸ hs')
  have hlists := steps.mem_lists_edited hreal hkey (srv.members_current steps)
    hends hqueue hdistinct (srv.view server)
  rw [Client.entryListEdits, ← hview] at hlists
  have habsent := State.ne_absent hstate
  constructor
  · intro s hs
    have hbare := hexpects.bare s hs
    have hother : srv.canonicalName = .str srv.canonical →
        s ++ "@" ++ srv.realm ≠ srv.canonical :=
      fun hname => hexpects.other hname s hs
    refine ⟨hbare, (hlists _).mpr ?_, hother⟩
    by_cases hhas : s ∈ srv.aliases server
    · refine Or.inr ⟨hhas.2.1, ?_⟩
      rintro ⟨s', hs', hstate', heq⟩
      rw [srv.stored_bare hs'.1] at heq
      obtain rfl := srv.aliases_inj hs'.1 hbare heq
      rcases hstate' with ⟨-, hnot⟩ | ⟨h, -⟩
      · exact hnot hs
      · exact habsent h
    · exact Or.inl ⟨habsent, s, hs, hhas, srv.stored_bare hbare⟩
  · rintro hexact s ⟨hbare, hmem, hother⟩
    rcases (hlists _).mp hmem with ⟨-, s', hs', -, heq⟩ | ⟨hthere, hkept⟩
    · rw [srv.stored_bare (hexpects.bare s' hs')] at heq
      exact srv.aliases_inj (hexpects.bare s' hs') hbare heq ▸ hs'
    · by_contra hnot
      exact hkept ⟨s, ⟨hbare, hthere, hother⟩, Or.inl ⟨hexact, hnot⟩,
        srv.stored_bare hbare⟩

theorem PrincipalServer.canonical_mem
    (srv : PrincipalServer (userClass.modRequestParams t.ansibleModule) σ)
    (server : σ) :
    srv.canonical ∈ (srv.view server).lists "krbprincipalname" := by
  obtain ⟨item, princs, -, hreply, -, hprincs, -⟩ := srv.reply server
  exact (hprincs _).mp hreply.canonical_mem

/-- Once a run of a task has stored its aliases, a second run has no alias to
add or to remove, exactly when the task writes no alias with its realm, does
not ask for the canonical principal where the client leaves it out, and asks
for it in state `exact` where the client does not. -/
theorem alias_idempotent_iff (hstate : t.state = .present ∨ t.state = .exact)
    (hreal : t.checkMode = false)
    (hruns : srv.Runs t.ansibleModule server server') :
    (∃ found q, Client.user.find t.ansibleModule (srv.find server') =
        .ok found ∧
      Client.user.queueRequests t.ansibleModule found = .ok q ∧
      found.diffs.listAdd.lookup "krbprincipalname" = none ∧
      found.diffs.listDel.lookup "krbprincipalname" = none ∧
      ∀ entry ∈ q.entries, entry.request.method ≠ "user_add_principal" ∧
        entry.request.method ≠ "user_remove_principal") ↔
    PrincipalServer.Expects t srv := by
  have hkey : Client.user.ListAttr "krbprincipalname" :=
    Client.listAttr_of_type rfl
  have habsent := State.ne_absent hstate
  have hcert : ¬(Client.user = .cert ∧ t.ansibleModule.state = .absent) := by
    rintro ⟨h, -⟩
    contradiction
  constructor
  · rintro ⟨found, q, hfind, -, hadd, hdel, -⟩
    obtain ⟨item, steps⟩ := Client.find_steps hfind
    have hdiff := steps.mem_diff_side hkey (srv.members_current steps)
    have hhas : t.wants.lists "krbprincipalname" ⊆ srv.aliases server' := by
      intro s hs
      by_contra hnot
      exact (steps.side_eq_none_iff hcert .add _).mp hadd (.str s)
        ((hdiff _).1.mpr ⟨habsent, s, rfl, hs, hnot⟩)
    refine ⟨fun s hs => (hhas hs).1, fun hname s hs => (hhas hs).2.2 hname,
      fun hexact hname => ?_⟩
    -- the client finds the canonical principal among the aliases
    obtain ⟨s, hs, hcanonical⟩ := srv.qualified (srv.canonical_mem server')
    have hfound : s ∈ srv.aliases server' :=
      ⟨hs, hcanonical ▸ srv.canonical_mem server', fun h => absurd h hname⟩
    refine ⟨s, ?_, hcanonical.symm⟩
    by_contra hnot
    exact (steps.side_eq_none_iff hcert .del _).mp hdel (.str s)
      ((hdiff _).2.mpr ⟨s, rfl, hfound, Or.inl ⟨hexact, hnot⟩⟩)
  · intro hexpects
    obtain ⟨hsub, hexact⟩ := hexpects.aliases_run hstate hreal hruns
    obtain ⟨found, hfind⟩ := srv.find_isOk t server'
    obtain ⟨item, steps⟩ := Client.find_steps hfind
    have hends := t.remEnds_eq_false hstate found
    obtain ⟨q, hqueue⟩ :=
      queueRequests_isOk .user (by decide) (m := t.ansibleModule) rfl hends
    have hdiff := steps.mem_diff_side hkey (srv.members_current steps)
    have hadd : found.diffs.listAdd.lookup "krbprincipalname" = none := by
      refine (steps.side_eq_none_iff hcert .add _).mpr fun a ha => ?_
      obtain ⟨-, s, -, hs, hnot⟩ := (hdiff a).1.mp ha
      exact hnot (hsub hs)
    have hdel : found.diffs.listDel.lookup "krbprincipalname" = none := by
      refine (steps.side_eq_none_iff hcert .del _).mpr fun a ha => ?_
      obtain ⟨s, -, hs, ⟨hstate', hnot⟩ | ⟨h, -⟩⟩ := (hdiff a).2.mp ha
      · exact hnot (hexact hstate' hs)
      · exact habsent h
    refine ⟨found, q, hfind, hqueue, hadd, hdel, fun entry hentry => ?_⟩
    obtain ⟨haddMethod, hdelMethod⟩ :=
      listed_of_principalMethod hends hqueue hentry
    exact ⟨fun h => haddMethod h hadd, fun h => hdelMethod h hdel⟩

end SecondRun

/-! ## A server with one user -/

/-- Principals of one realm, with the canonical one of the user. -/
def PinkyPrincipals (princs : List String) : Prop :=
  princs.Nodup ∧ "pinky@EXAMPLE.COM" ∈ princs ∧
    ∀ princ ∈ princs, '@' ∉ (krbprincipalAlias princ).toList ∧
      princ = krbprincipalAlias princ ++ "@" ++ "EXAMPLE.COM"

instance : DecidablePred PinkyPrincipals := fun _ =>
  inferInstanceAs (Decidable (_ ∧ _ ∧ _))

/-- The lists of the user, whose principals stay well formed. -/
structure PinkyUser where
  values : ListValues
  principals : PinkyPrincipals (values "krbprincipalname")

def PinkyUser.item (user : PinkyUser) : Dict String Val :=
  Dict.ofList
    [("uid", .list [.str "pinky"]),
     ("krbcanonicalname", .list [.str "pinky@EXAMPLE.COM"]),
     ("krbprincipalname",
       .list ((user.values "krbprincipalname").map .str)),
     ("mail", .list ((user.values "mail").map .str)),
     ("telephonenumber", .list ((user.values "telephonenumber").map .str)),
     ("mobile", .list ((user.values "mobile").map .str)),
     ("pager", .list ((user.values "pager").map .str)),
     ("fax", .list ((user.values "fax").map .str))]
    (by simp)

theorem PinkyUser.principalReply (user : PinkyUser) :
    PrincipalReply .user user.item "pinky@EXAMPLE.COM"
      (user.values "krbprincipalname") where
  listed := rfl
  nodup := user.principals.1
  canonical_mem := user.principals.2.1
  named := Or.inr rfl
  others := by
    intro key type raw htype hraw
    by_cases hlist : type = .list
    · subst hlist
      exact cleanValue_list_isOk raw
    · replace hraw := Dict.mem_of_lookup_ofList hraw
      simp only [List.mem_cons, Prod.mk.injEq, List.not_mem_nil, or_false]
        at hraw
      rcases hraw with ⟨rfl, rfl⟩ | ⟨rfl, -⟩ | ⟨rfl, -⟩ | ⟨rfl, -⟩ |
        ⟨rfl, -⟩ | ⟨rfl, -⟩ | ⟨rfl, -⟩ | ⟨rfl, -⟩
      · obtain rfl : ParamType.str = type := Option.some.inj htype
        exact ⟨_, rfl⟩
      · contradiction
      all_goals exact absurd (Option.some.inj htype).symm hlist
  certs := by
    intro _ raw hraw
    have hnone : user.item.lookup "usercertificate" = none := rfl
    rw [hnone] at hraw
    contradiction

def pinkyServer (name : List Val) : PrincipalServer name PinkyUser where
  post user r :=
    let values := (Client.user.listEdits (fun key s =>
      if key = "krbprincipalname" ∧ '@' ∉ s.toList then
        s ++ "@" ++ "EXAMPLE.COM" else s) r).foldl ListValues.edit user.values
    if hvalues : PinkyPrincipals (values "krbprincipalname") then
      .ok (.dict [], ⟨values, hvalues⟩)
    else .error (.failJson "user_mod: invalid principal")
  find user := .ofList [user.item]
  view user := user.values.view
  stored key s :=
    if key = "krbprincipalname" ∧ '@' ∉ s.toList then
      s ++ "@" ++ "EXAMPLE.COM" else s
  updated := by
    intro user user' r response hpost _ _ _
    dsimp only at hpost
    split_ifs at hpost
    rw [Except.ok.injEq, Prod.mk.injEq] at hpost
    rw [← hpost.2]
    exact ListValues.view_edits _ user.values
  realm := "EXAMPLE.COM"
  canonical := "pinky@EXAMPLE.COM"
  canonicalName := .list [.str "pinky@EXAMPLE.COM"]
  realm_plain := by simp
  canonicalName_form := Or.inr rfl
  stored_principal := by
    intro s
    by_cases hs : '@' ∈ s.toList
    · simp [hs]
    · simp [hs]
  qualified := by
    intro user princ hprinc
    exact ⟨_, user.principals.2.2 princ hprinc⟩
  reply := by
    intro user
    refine ⟨user.item, _, rfl, user.principalReply, rfl, fun _ => Iff.rfl,
      fun key hkey => ?_, ?_⟩
    · have hkeys : ∀ key ∈ userClass.kwArgs.keys, Client.user.PlainList key →
          key = "mail" ∨ key = "telephonenumber" ∨ key = "mobile" ∨
            key = "pager" ∨ key = "fax" := by decide +kernel
      rcases hkeys key (ClientClass.mem_kwArgs_of_type hkey.1.2) hkey with
        rfl | rfl | rfl | rfl | rfl
      all_goals exact .listed fun s => Iff.rfl
    · intro vs hvs
      have hnone : user.item.lookup "usercertificate" = none := rfl
      rw [hnone] at hvs
      contradiction

/-- A user without aliases. -/
def pinkyAlone : PinkyUser where
  values key :=
    if key = "krbprincipalname" then ["pinky@EXAMPLE.COM"] else []
  principals := by
    have hname : krbprincipalAlias "pinky@EXAMPLE.COM" = "pinky" := rfl
    simp [PinkyPrincipals, hname]

/-- A user that is to have these aliases. -/
def pinkyAliases (aliases : List String) : TypedTask .user where
  given := Dict.ofList
    [("uid", .str "pinky"),
     ("krbprincipalname", .list (aliases.map .str))] (by simp)
  state := .present
  typed := by
    intro key raw type hraw htype
    replace hraw := Dict.mem_of_lookup_ofList hraw
    simp only [List.mem_cons, Prod.mk.injEq, List.not_mem_nil, or_false]
      at hraw
    rcases hraw with ⟨rfl, rfl⟩ | ⟨rfl, rfl⟩
    · obtain rfl : ParamType.str = type := Option.some.inj htype
      exact .text _
    · obtain rfl : ParamType.list = type := Option.some.inj htype
      exact .listed aliases

/-- The server of the task. -/
def pinkyRealm (aliases : List String) : PrincipalServer
    (userClass.modRequestParams (pinkyAliases aliases).ansibleModule)
    PinkyUser :=
  pinkyServer _

/-- The second run adds an alias with its realm again. -/
theorem pinkyAliases_added_again :
    ¬∀ (t : TypedTask .user) (σ : Type)
      (srv : PrincipalServer (userClass.modRequestParams t.ansibleModule) σ)
      (server : σ) (run : Val × Bool × σ),
      t.state = .present ∨ t.state = .exact → t.checkMode = false →
      (∀ s ∈ t.wants.lists "krbprincipalname", '@' ∉ s.toList ∨
        ∃ s', '@' ∉ s'.toList ∧ s = s' ++ "@" ++ srv.realm) →
      Client.user.ensure t.ansibleModule (srv.find server) srv.post server =
        .ok run →
      ∃ found q, Client.user.find t.ansibleModule (srv.find run.2.2) =
          .ok found ∧
        Client.user.queueRequests t.ansibleModule found = .ok q ∧
        found.diffs.listAdd.lookup "krbprincipalname" = none ∧
        found.diffs.listDel.lookup "krbprincipalname" = none ∧
        ∀ entry ∈ q.entries, entry.request.method ≠ "user_add_principal" ∧
          entry.request.method ≠ "user_remove_principal" := by
  intro hidempotent
  have hruns : ∃ run found vals, Client.user.ensure
        (pinkyAliases ["narf@EXAMPLE.COM"]).ansibleModule
        ((pinkyRealm ["narf@EXAMPLE.COM"]).find pinkyAlone)
        (pinkyRealm ["narf@EXAMPLE.COM"]).post pinkyAlone = .ok run ∧
      Client.user.find (pinkyAliases ["narf@EXAMPLE.COM"]).ansibleModule
        ((pinkyRealm ["narf@EXAMPLE.COM"]).find run.2.2) = .ok found ∧
      found.diffs.listAdd.lookup "krbprincipalname" = some vals :=
    ⟨_, _, _, rfl, rfl, rfl⟩
  obtain ⟨run, found, vals, hensure, hfind, hadd⟩ := hruns
  have hwants : (pinkyAliases ["narf@EXAMPLE.COM"]).wants.lists
      "krbprincipalname" = {s | s ∈ ["narf@EXAMPLE.COM"]} :=
    TypedTask.wants_of_given (Client.listAttr_of_type rfl) rfl
  have hforms : ∀ s ∈ (pinkyAliases ["narf@EXAMPLE.COM"]).wants.lists
      "krbprincipalname", '@' ∉ s.toList ∨
        ∃ s', '@' ∉ s'.toList ∧ s = s' ++ "@" ++ "EXAMPLE.COM" := by
    intro s hs
    rw [hwants] at hs
    obtain rfl := List.mem_singleton.mp hs
    exact Or.inr ⟨"narf", by simp, rfl⟩
  obtain ⟨found', q, hfind', -, hnone, -⟩ := hidempotent _ _
    (pinkyRealm ["narf@EXAMPLE.COM"]) _ run (Or.inl rfl) rfl hforms hensure
  obtain rfl := Except.ok.inj (hfind.symm.trans hfind')
  rw [hadd] at hnone
  contradiction

theorem pinkyAliases_idempotent_iff :
    ∃ run found, Client.user.ensure (pinkyAliases ["narf"]).ansibleModule
        ((pinkyRealm ["narf"]).find pinkyAlone) (pinkyRealm ["narf"]).post
        pinkyAlone = .ok run ∧
      Client.user.find (pinkyAliases ["narf"]).ansibleModule
        ((pinkyRealm ["narf"]).find run.2.2) = .ok found ∧
      found.diffs.listAdd.lookup "krbprincipalname" = none ∧
      found.diffs.listDel.lookup "krbprincipalname" = none := by
  have hrun : ∃ run, Client.user.ensure (pinkyAliases ["narf"]).ansibleModule
      ((pinkyRealm ["narf"]).find pinkyAlone) (pinkyRealm ["narf"]).post
      pinkyAlone = .ok run :=
    ⟨_, rfl⟩
  obtain ⟨run, hensure⟩ := hrun
  have hwants : (pinkyAliases ["narf"]).wants.lists "krbprincipalname" =
      {s | s ∈ ["narf"]} :=
    TypedTask.wants_of_given (Client.listAttr_of_type rfl) rfl
  have hexpects : PrincipalServer.Expects (pinkyAliases ["narf"])
      (pinkyRealm ["narf"]) := by
    refine ⟨fun s hs => ?_, fun h => by contradiction,
      fun h => by contradiction⟩
    rw [hwants] at hs
    obtain rfl := List.mem_singleton.mp hs
    simp
  obtain ⟨found, q, hfind, -, hadd, hdel, -⟩ :=
    (alias_idempotent_iff (t := pinkyAliases ["narf"]) (Or.inl rfl) rfl
      (PrincipalServer.runs_of_ensure rfl hensure)).mpr hexpects
  exact ⟨run, found, hensure, hfind, hadd, hdel⟩

end FreeipaProv

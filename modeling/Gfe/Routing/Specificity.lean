import Gfe.Routing.Table

/-! # The route table picks the most specific route

The reference is one line: of the routes that match, the one ranked highest by
host class, then by suffix, then by path prefix, the earliest on a tie. The
table reaches the same route through its buckets. Each bucket is a filter of
the route list, at most one wildcard pattern matches a host, and falling
through from one class to the next is splitting the ranking by class.
-/

namespace Gfe

inductive HostClass where
  | any
  | wildcard
  | exact
  deriving DecidableEq

def HostClass.of (pattern : Str) : HostClass :=
  if pattern == ['*'] then .any
  else if Text.startsWith pattern ['*', '.'] then .wildcard
  else .exact

def Route.pattern (route : Route) : Str := Text.toAsciiLowercase (Text.trim route.host)

def Route.hostClass (route : Route) : HostClass := .of route.pattern

/-- The order among matching routes: class first, then the length of a wildcard
    suffix, then the length of the path prefix. -/
def specificity (pattern pathPrefix : Str) : ℕ ×ₗ ℕ ×ₗ ℕ :=
  match HostClass.of pattern with
  | .exact => toLex (2, toLex (0, Text.len pathPrefix))
  | .wildcard => toLex (1, toLex (Text.len pattern, Text.len pathPrefix))
  | .any => toLex (0, toLex (0, Text.len pathPrefix))

/-- The routes on a listener that match a request, when the pattern of a route
    is what `pattern` says. -/
def matchingRoutes (pattern : Route → Str) (config : DynamicConfig) (listener : ListenerId)
    (host path : Str) : List Route :=
  config.routes.filter fun route =>
    route.listener == listener && (hostMatches (pattern route) (Text.toAsciiLowercase host) &&
      pathPrefixMatches route.pathPrefix path)

/-- The most specific of them, the earliest on a tie. -/
def bestRoute (pattern : Route → Str) (config : DynamicConfig) (listener : ListenerId)
    (host path : Str) : Option Route :=
  (matchingRoutes pattern config listener host path).argmax fun route =>
    specificity (pattern route) route.pathPrefix

/-! ## Which patterns match a host -/

theorem HostClass.of_toAsciiLowercase (pattern : Str) :
    HostClass.of (Text.toAsciiLowercase pattern) = .of pattern := by
  have star : (Text.toAsciiLowercase pattern == ['*']) = (pattern == ['*']) := by
    rw [Bool.eq_iff_iff, beq_iff_eq, beq_iff_eq, Text.toAsciiLowercase_eq_iff (by decide)]
  have start : Text.startsWith (Text.toAsciiLowercase pattern) ['*', '.'] =
      Text.startsWith pattern ['*', '.'] := Text.startsWith_toAsciiLowercase (by decide)
  simp only [HostClass.of, star, start]

theorem HostClass.of_eq_any {pattern : Str} : HostClass.of pattern = .any ↔ pattern = ['*'] := by
  unfold HostClass.of
  split
  · rename_i star
    simpa using star
  · rename_i other
    have other : pattern ≠ ['*'] := by simpa using other
    split <;> simp [other]

theorem HostClass.of_eq_wildcard {pattern : Str} :
    HostClass.of pattern = .wildcard ↔ ∃ rest, pattern = '*' :: '.' :: rest := by
  unfold HostClass.of
  split
  · rename_i star
    simp [beq_iff_eq.mp star]
  · split
    · rename_i start
      obtain ⟨rest, same⟩ := Text.startsWith_iff.mp start
      exact ⟨fun _ => ⟨rest, same.symm⟩, fun _ => rfl⟩
    · rename_i other
      constructor
      · intro impossible
        cases impossible
      · rintro ⟨rest, rfl⟩
        exact absurd (Text.startsWith_iff.mpr ⟨rest, rfl⟩) other

/-- The one wildcard pattern that can match a host: its first label replaced. -/
def wildcardOf (host : Str) : Str := '*' :: host.dropWhile (· != '.')

theorem hostMatches_any {pattern : Str} (host : Str) (any : HostClass.of pattern = .any) :
    hostMatches pattern host = true := by
  simp [hostMatches, HostClass.of_eq_any.mp any]

theorem eq_wildcardOf_of_hostMatches {pattern host : Str}
    (wildcard : HostClass.of pattern = .wildcard) (accepted : hostMatches pattern host = true) :
    pattern = wildcardOf host := by
  obtain ⟨rest, rfl⟩ := HostClass.of_eq_wildcard.mp wildcard
  have suffix : (Text.stripStart ('*' :: '.' :: rest) ['*']).filter (Text.startsWith · ['.']) =
      some ('.' :: rest) := by
    have stripped : Text.stripStart ('*' :: '.' :: rest) ['*'] = some ('.' :: rest) :=
      Text.stripStart_eq_some.mpr rfl
    rw [stripped]
    rfl
  simp only [hostMatches, suffix] at accepted
  rw [if_neg (by simp)] at accepted
  cases front : Text.stripEnd host ('.' :: rest) with
  | none => simp [front] at accepted
  | some label =>
    simp only [front, Bool.and_eq_true, Bool.not_eq_true', List.contains_eq_mem,
      decide_eq_false_iff_not] at accepted
    have whole := Text.stripEnd_eq_some.mp front
    have plain : ∀ c ∈ label, (c != '.') = true := by
      intro c member
      rw [bne_iff_ne]
      rintro rfl
      exact accepted.2 member
    rw [wildcardOf, ← whole, List.dropWhile_append_of_pos plain]
    rfl

theorem hostMatches_exact {pattern host : Str} (exact : HostClass.of pattern = .exact) :
    hostMatches pattern host = Text.eqIgnoreAsciiCase pattern host := by
  have notAny : pattern ≠ ['*'] := by
    intro any
    rw [HostClass.of_eq_any.mpr any] at exact
    cases exact
  have notWildcard :
      (Text.stripStart pattern ['*']).filter (Text.startsWith · ['.']) = none := by
    rw [Option.filter_eq_none_iff]
    intro suffix stripped dotted
    obtain ⟨rest, rfl⟩ := Text.startsWith_iff.mp dotted
    have wildcard := HostClass.of_eq_wildcard.mpr ⟨rest, (Text.stripStart_eq_some.mp stripped).symm⟩
    rw [wildcard] at exact
    cases exact
  simp [hostMatches, notAny, notWildcard]

/-! ## Buckets are filters of the route list -/

namespace ListenerRoutes

def bucket (routes : List Route) (select : Route → Bool) : HostRoutes :=
  ⟨(routes.filter select).map .ofRoute⟩

def ofRoutes (routes : List Route) : ListenerRoutes := routes.foldl insertRoute empty

theorem ofRoutes_concat (routes : List Route) (route : Route) :
    ofRoutes (routes ++ [route]) = (ofRoutes routes).insertRoute route := by
  simp [ofRoutes]

theorem bucket_concat (routes : List Route) (route : Route) (select : Route → Bool) :
    bucket (routes ++ [route]) select =
      if select route then (bucket routes select).push (.ofRoute route)
      else bucket routes select := by
  cases selected : select route <;> simp [bucket, HostRoutes.push, selected]

theorem insertRoute_eq (lr : ListenerRoutes) (route : Route) :
    lr.insertRoute route =
      match route.hostClass with
      | .any => { lr with anyHost := lr.anyHost.push (.ofRoute route) }
      | .wildcard =>
        { lr with wildcardHosts := pushWildcard route.pattern (.ofRoute route) lr.wildcardHosts }
      | .exact =>
        { lr with exactHosts :=
            lr.exactHosts.update route.pattern .empty (·.push (.ofRoute route)) } := by
  rw [Route.hostClass, Route.pattern, HostClass.of_toAsciiLowercase]
  cases star : Text.trim route.host == ['*'] <;>
    cases start : Text.startsWith (Text.trim route.host) ['*', '.'] <;>
      simp only [insertRoute, HostClass.of, star, start, if_true, if_false, Bool.false_eq_true]

theorem anyHost_ofRoutes (routes : List Route) :
    (ofRoutes routes).anyHost = bucket routes (·.hostClass == .any) := by
  induction routes using List.reverseRecOn with
  | nil => rfl
  | append_singleton routes route ih =>
    rw [ofRoutes_concat, bucket_concat, insertRoute_eq]
    cases route.hostClass <;> simp [ih]

theorem exactHosts_ofRoutes (routes : List Route) (host : Str) :
    ((ofRoutes routes).exactHosts.lookup host).getD .empty =
      bucket routes fun route => route.hostClass == .exact && route.pattern == host := by
  induction routes using List.reverseRecOn with
  | nil => rfl
  | append_singleton routes route ih =>
    rw [ofRoutes_concat, bucket_concat, insertRoute_eq]
    cases route.hostClass with
    | any => simp [ih]
    | wildcard => simp [ih]
    | exact =>
      rw [HashMap.lookup_update]
      by_cases same : host = route.pattern
      · subst same
        simp [ih]
      · simp [same, Ne.symm same, ih]

/-- The wildcard list of `routes`: one entry per pattern, each the bucket of it. -/
structure WildcardBuckets (routes : List Route) (entries : List (Str × HostRoutes)) : Prop where
  nodup : (entries.map Prod.fst).Nodup
  wildcard : ∀ entry ∈ entries, HostClass.of entry.1 = .wildcard
  bucket : ∀ entry ∈ entries, entry.2 = ListenerRoutes.bucket routes fun route =>
    route.hostClass == .wildcard && route.pattern == entry.1
  complete : ∀ route ∈ routes, route.hostClass = .wildcard → route.pattern ∈ entries.map Prod.fst

theorem keys_pushWildcard (key : Str) (route : CompiledRoute) (entries : List (Str × HostRoutes)) :
    (pushWildcard key route entries).map Prod.fst =
      if key ∈ entries.map Prod.fst then entries.map Prod.fst
      else entries.map Prod.fst ++ [key] := by
  induction entries with
  | nil => rfl
  | cons entry entries ih =>
    obtain ⟨pattern, hr⟩ := entry
    unfold pushWildcard
    by_cases same : pattern = key
    · simp [same]
    · simp only [beq_iff_eq, same, if_false, List.map_cons, ih, List.mem_cons, Ne.symm same,
        false_or]
      split <;> rfl

theorem mem_pushWildcard {key : Str} {route : CompiledRoute} {entries : List (Str × HostRoutes)}
    {entry : Str × HostRoutes} (nodup : (entries.map Prod.fst).Nodup)
    (member : entry ∈ pushWildcard key route entries) :
    (entry ∈ entries ∧ entry.1 ≠ key) ∨
      (∃ hr, (key, hr) ∈ entries ∧ entry = (key, hr.push route)) ∨
      (key ∉ entries.map Prod.fst ∧ entry = (key, ⟨[route]⟩)) := by
  induction entries with
  | nil => exact .inr (.inr ⟨by simp, by simpa [pushWildcard] using member⟩)
  | cons head entries ih =>
    obtain ⟨pattern, hr⟩ := head
    obtain ⟨fresh, nodup⟩ := List.nodup_cons.mp nodup
    unfold pushWildcard at member
    by_cases same : pattern = key
    · subst same
      simp only [beq_self_eq_true, if_true, List.mem_cons] at member
      rcases member with rfl | member
      · exact .inr (.inl ⟨hr, List.mem_cons_self, rfl⟩)
      · refine .inl ⟨List.mem_cons_of_mem _ member, ?_⟩
        intro same
        exact fresh (List.mem_map.mpr ⟨entry, member, same⟩)
    · simp only [beq_iff_eq, same, if_false, List.mem_cons] at member
      rcases member with rfl | member
      · exact .inl ⟨List.mem_cons_self, same⟩
      · rcases ih nodup member with ⟨old, other⟩ | ⟨hr, old, rfl⟩ | ⟨absent, rfl⟩
        · exact .inl ⟨List.mem_cons_of_mem _ old, other⟩
        · exact .inr (.inl ⟨hr, List.mem_cons_of_mem _ old, rfl⟩)
        · refine .inr (.inr ⟨?_, rfl⟩)
          simpa [Ne.symm same] using absent

theorem wildcardHosts_ofRoutes (routes : List Route) :
    WildcardBuckets routes (ofRoutes routes).wildcardHosts := by
  induction routes using List.reverseRecOn with
  | nil => exact ⟨by simp [ofRoutes, empty], by simp [ofRoutes, empty], by simp [ofRoutes, empty],
      by simp⟩
  | append_singleton routes route ih =>
    rw [ofRoutes_concat, insertRoute_eq]
    cases cls : route.hostClass with
    | any | exact =>
      refine ⟨ih.nodup, ih.wildcard, ?_, ?_⟩
      · intro entry member
        rw [bucket_concat, ih.bucket entry member]
        simp [cls]
      · intro other member wildcard
        rcases List.mem_append.mp member with old | new
        · exact ih.complete other old wildcard
        · rw [List.mem_singleton.mp new, cls] at wildcard
          cases wildcard
    | wildcard =>
      refine ⟨?_, ?_, ?_, ?_⟩
      · rw [keys_pushWildcard]
        split
        · exact ih.nodup
        · rename_i absent
          exact List.nodup_append.mpr ⟨ih.nodup, List.nodup_singleton _, by
            rintro a old b new rfl
            exact absent (List.mem_singleton.mp new ▸ old)⟩
      · intro entry member
        rcases mem_pushWildcard ih.nodup member with ⟨old, _⟩ | ⟨hr, _, rfl⟩ | ⟨_, rfl⟩
        · exact ih.wildcard entry old
        · exact cls
        · exact cls
      · intro entry member
        rw [bucket_concat]
        rcases mem_pushWildcard ih.nodup member with ⟨old, other⟩ | ⟨hr, old, rfl⟩ | ⟨absent, rfl⟩
        · simp [cls, Ne.symm other, ih.bucket entry old]
        · simp [cls, ← ih.bucket _ old]
        · -- no route of this pattern was seen before
          have none : bucket routes (fun other => other.hostClass == .wildcard &&
              other.pattern == route.pattern) = .empty := by
            simp only [bucket, HostRoutes.empty, HostRoutes.mk.injEq, List.map_eq_nil_iff,
              List.filter_eq_nil_iff, Bool.and_eq_true, beq_iff_eq, not_and]
            intro other member wildcard same
            exact absent (same ▸ ih.complete other member wildcard)
          simp [cls, none, HostRoutes.push, HostRoutes.empty]
      · intro other member wildcard
        rw [keys_pushWildcard]
        rcases List.mem_append.mp member with old | new
        · have known := ih.complete other old wildcard
          split
          · exact known
          · exact List.mem_append_left _ known
        · rw [List.mem_singleton.mp new]
          split
          · assumption
          · exact List.mem_append_right _ (List.mem_singleton_self _)

/-! ## Walking the buckets -/

def matchingIn (cls : HostClass) (routes : List Route) (host path : Str) : List Route :=
  routes.filter fun route => route.hostClass == cls &&
    (hostMatches route.pattern host && pathPrefixMatches route.pathPrefix path)

theorem matchPath_bucket (routes : List Route) (select : Route → Bool) (path : Str) :
    (bucket routes select).sortRoutes.matchPath path =
      ((routes.filter fun route => select route && pathPrefixMatches route.pathPrefix path).argmax
        fun route => Text.len route.pathPrefix).map .ofRoute := by
  rw [HostRoutes.matchPath, HostRoutes.sortRoutes, Ranking.find?_sortDescending, bucket,
    List.filter_map, Ranking.argmax_map, List.filter_filter]
  congr 2
  exact List.filter_congr fun route _ => Bool.and_comm _ _

theorem argmax_matchingIn (cls : HostClass) (routes : List Route) (host path : Str) :
    ((matchingIn cls routes host path).argmax fun route =>
        specificity route.pattern route.pathPrefix) =
      (matchingIn cls routes host path).argmax fun route => Text.len route.pathPrefix := by
  apply Ranking.argmax_congr
  intro a memberA b memberB
  simp only [matchingIn, List.mem_filter, Bool.and_eq_true, beq_iff_eq] at memberA memberB
  obtain ⟨_, clsA, hostA, _⟩ := memberA
  obtain ⟨_, clsB, hostB, _⟩ := memberB
  unfold Route.hostClass at clsA clsB
  cases cls with
  | any | exact => simp [specificity, clsA, clsB, Prod.Lex.toLex_lt_toLex]
  | wildcard =>
    have same : a.pattern = b.pattern :=
      (eq_wildcardOf_of_hostMatches clsA hostA).trans
        (eq_wildcardOf_of_hostMatches clsB hostB).symm
    simp [specificity, clsB, same, Prod.Lex.toLex_lt_toLex]

theorem anyHost_matchPath (routes : List Route) (host path : Str) :
    (ofRoutes routes).order.anyHost.matchPath path =
      ((matchingIn .any routes host path).argmax fun route =>
        Text.len route.pathPrefix).map .ofRoute := by
  change (ofRoutes routes).anyHost.sortRoutes.matchPath path = _
  rw [anyHost_ofRoutes, matchPath_bucket, matchingIn]
  congr 2
  apply List.filter_congr
  intro route _
  cases cls : route.hostClass == .any with
  | false => rfl
  | true => rw [hostMatches_any host (beq_iff_eq.mp cls), Bool.true_and, Bool.true_and]

theorem exactHosts_matchPath (routes : List Route) (host path : Str) :
    ((ofRoutes routes).order.exactHosts.lookup (Text.toAsciiLowercase host)).bind
        (·.matchPath path) =
      ((matchingIn .exact routes (Text.toAsciiLowercase host) path).argmax fun route =>
        Text.len route.pathPrefix).map .ofRoute := by
  have found : ((ofRoutes routes).order.exactHosts.lookup (Text.toAsciiLowercase host)).bind
      (·.matchPath path) = (((ofRoutes routes).exactHosts.lookup
        (Text.toAsciiLowercase host)).getD .empty).sortRoutes.matchPath path := by
    change (AList.lookup _ ((ofRoutes routes).exactHosts.mapValues HostRoutes.sortRoutes)).bind _ = _
    rw [HashMap.lookup_mapValues]
    cases (ofRoutes routes).exactHosts.lookup (Text.toAsciiLowercase host) <;> rfl
  rw [found, exactHosts_ofRoutes, matchPath_bucket, matchingIn]
  congr 2
  apply List.filter_congr
  intro route _
  cases cls : route.hostClass == .exact with
  | false => rfl
  | true =>
    -- both sides are lowercased, so matching ignoring case is equality
    have lower : Text.toAsciiLowercase route.pattern = route.pattern := by
      simp [Route.pattern]
    rw [hostMatches_exact (beq_iff_eq.mp cls), Text.eqIgnoreAsciiCase, lower,
      Text.toAsciiLowercase_idem, Bool.true_and, Bool.true_and]

theorem wildcardHosts_findSome (routes : List Route) (host path : Str) :
    ((ofRoutes routes).order.wildcardHosts.findSome? fun entry =>
        if hostMatches entry.1 host then entry.2.matchPath path else none) =
      ((matchingIn .wildcard routes host path).argmax fun route =>
        Text.len route.pathPrefix).map .ofRoute := by
  have buckets := wildcardHosts_ofRoutes routes
  have listed : ∀ entry, entry ∈ (ofRoutes routes).order.wildcardHosts ↔
      ∃ old ∈ (ofRoutes routes).wildcardHosts, (old.1, old.2.sortRoutes) = entry := by
    intro entry
    rw [order, Ranking.mem_sortDescending, List.mem_map]
  by_cases hit : ∃ entry ∈ (ofRoutes routes).wildcardHosts, hostMatches entry.1 host = true
  · obtain ⟨entry, member, accepted⟩ := hit
    rw [Ranking.findSome?_of_agree ((listed _).mpr ⟨entry, member, rfl⟩)]
    · rw [if_pos accepted, buckets.bucket entry member, matchPath_bucket, matchingIn]
      congr 2
      apply List.filter_congr
      intro route _
      cases cls : route.hostClass == .wildcard with
      | false => rfl
      | true =>
        have same : (route.pattern == entry.1) = hostMatches route.pattern host := by
          rw [Bool.eq_iff_iff, beq_iff_eq]
          constructor
          · rintro same
            rw [same, accepted]
          · intro other
            rw [eq_wildcardOf_of_hostMatches (beq_iff_eq.mp cls) other,
              eq_wildcardOf_of_hostMatches (buckets.wildcard entry member) accepted]
        rw [same, Bool.true_and, Bool.true_and]
    · -- another entry whose pattern matches would have this very pattern
      intro other inside
      obtain ⟨old, memberOld, rfl⟩ := (listed _).mp inside
      by_cases acceptedOld : hostMatches old.1 host = true
      · right
        have same : old.1 = entry.1 := by
          rw [eq_wildcardOf_of_hostMatches (buckets.wildcard old memberOld) acceptedOld,
            eq_wildcardOf_of_hostMatches (buckets.wildcard entry member) accepted]
        simp only [same, buckets.bucket old memberOld, buckets.bucket entry member]
      · left
        simp [acceptedOld]
  · have noRoute : matchingIn .wildcard routes host path = [] := by
      simp only [matchingIn, List.filter_eq_nil_iff, Bool.and_eq_true, beq_iff_eq, not_and]
      intro route member cls accepted
      obtain ⟨entry, inside, same⟩ := List.mem_map.mp (buckets.complete route member cls)
      exact absurd ⟨entry, inside, same ▸ accepted⟩ hit
    rw [noRoute, List.argmax_nil, Option.map_none, List.findSome?_eq_none_iff]
    intro entry inside
    obtain ⟨old, member, rfl⟩ := (listed _).mp inside
    rw [if_neg fun accepted => hit ⟨old, member, accepted⟩]

/-- Exact hosts outrank wildcards, and wildcards outrank `*`. -/
theorem argmax_by_class (routes : List Route) :
    (routes.argmax fun route => specificity route.pattern route.pathPrefix) =
      (((routes.filter (·.hostClass == .exact)).argmax fun route =>
          specificity route.pattern route.pathPrefix).or
        (((routes.filter (·.hostClass == .wildcard)).argmax fun route =>
          specificity route.pattern route.pathPrefix).or
        ((routes.filter (·.hostClass == .any)).argmax fun route =>
          specificity route.pattern route.pathPrefix))) := by
  rw [Ranking.argmax_of_split _ (fun route => route.hostClass == .exact) routes,
    Ranking.argmax_of_split _ (fun route => route.hostClass == .wildcard)
      (routes.filter fun route => !(route.hostClass == .exact)),
    List.filter_filter, List.filter_filter]
  · congr 3
    · apply List.filter_congr
      intro route _
      cases route.hostClass <;> rfl
    · apply List.filter_congr
      intro route _
      cases route.hostClass <;> rfl
  · intro a memberA b memberB upper lower
    have notExact : ¬ b.hostClass = .exact := by simpa using (List.mem_filter.mp memberB).2
    simp only [beq_iff_eq, Route.hostClass] at upper lower notExact
    cases cls : HostClass.of b.pattern with
    | any => simp [specificity, upper, cls, Prod.Lex.toLex_lt_toLex]
    | wildcard => exact absurd cls lower
    | exact => exact absurd cls notExact
  · intro a _ b _ upper lower
    simp only [beq_iff_eq, Route.hostClass] at upper lower
    cases cls : HostClass.of b.pattern with
    | any | wildcard => simp [specificity, upper, cls, Prod.Lex.toLex_lt_toLex]
    | exact => exact absurd cls lower

/-- The three places a request looks in, one after the other. -/
theorem matchRequest_eq_or (lr : ListenerRoutes) (host path : Str) :
    lr.matchRequest host path =
      ((lr.exactHosts.lookup (Text.toAsciiLowercase host)).bind (·.matchPath path)).or
        ((lr.wildcardHosts.findSome? fun entry =>
          if hostMatches entry.1 (Text.toAsciiLowercase host) then entry.2.matchPath path
          else none).or (lr.anyHost.matchPath path)) := by
  have lower : (if host.any Char.isUpper then Text.toAsciiLowercase host else host) =
      Text.toAsciiLowercase host := by
    split
    · rfl
    · rename_i plain
      exact (Text.toAsciiLowercase_of_no_upper (by simpa using plain)).symm
  unfold matchRequest
  rw [lower]
  dsimp only
  split
  · rename_i found
    rw [found, Option.some_or]
  · rename_i missed
    rw [missed, Option.none_or]
    split
    · rename_i found
      rw [found, Option.some_or]
    · rename_i missed
      rw [missed, Option.none_or]

theorem matchRequest_ofRoutes (routes : List Route) (host path : Str) :
    (ofRoutes routes).order.matchRequest host path =
      ((routes.filter fun route => hostMatches route.pattern (Text.toAsciiLowercase host) &&
        pathPrefixMatches route.pathPrefix path).argmax fun route =>
          specificity route.pattern route.pathPrefix).map .ofRoute := by
  rw [argmax_by_class, List.filter_filter, List.filter_filter, List.filter_filter]
  change _ = ((((matchingIn .exact routes _ path).argmax _).or
    (((matchingIn .wildcard routes _ path).argmax _).or
      ((matchingIn .any routes _ path).argmax _))).map _)
  rw [matchRequest_eq_or, argmax_matchingIn, argmax_matchingIn, argmax_matchingIn, Option.map_or,
    Option.map_or, exactHosts_matchPath, wildcardHosts_findSome, anyHost_matchPath]

end ListenerRoutes

/-! ## The table of a config -/

namespace RouteTable

theorem lookup_collected (routes : List Route) (listener : ListenerId) :
    (AList.lookup listener (routes.foldl
        (fun (listeners : HashMap ListenerId ListenerRoutes) route =>
          listeners.update route.listener .empty (·.insertRoute route)) ∅)).getD .empty =
      .ofRoutes (routes.filter (·.listener == listener)) := by
  induction routes using List.reverseRecOn with
  | nil => rfl
  | append_singleton routes route ih =>
    rw [List.foldl_append, List.foldl_cons, List.foldl_nil, HashMap.lookup_update,
      List.filter_append]
    by_cases same : listener = route.listener
    · subst same
      simp [ih, ListenerRoutes.ofRoutes_concat]
    · simp [same, Ne.symm same, ih]

theorem matchRequest_compile (config : DynamicConfig) (listener : ListenerId) (host path : Str) :
    (compile config).matchRequest listener host path =
      (ListenerRoutes.ofRoutes (config.routes.filter (·.listener == listener))).order.matchRequest
        host path := by
  rw [← lookup_collected]
  unfold matchRequest compile
  rw [HashMap.lookup_mapValues]
  cases AList.lookup listener (config.routes.foldl
      (fun (listeners : HashMap ListenerId ListenerRoutes) route =>
        listeners.update route.listener .empty (·.insertRoute route)) ∅) with
  | some lr => rfl
  | none => simp [ListenerRoutes.order, ListenerRoutes.empty, ListenerRoutes.matchRequest,
      HashMap.lookup_mapValues, HostRoutes.empty, HostRoutes.sortRoutes, HostRoutes.matchPath,
      Ranking.sortDescending]

/-- The compiled table answers with the most specific matching route, and with
    none exactly when no route matches. A route's pattern is its trimmed host
    in lowercase. -/
theorem matchRequest_eq_bestRoute (config : DynamicConfig) (listener : ListenerId)
    (host path : Str) :
    (compile config).matchRequest listener host path =
        (bestRoute Route.pattern config listener host path).map .ofRoute ∧
      ((compile config).matchRequest listener host path = none ↔
        ∀ route ∈ config.routes, route.listener = listener →
          hostMatches route.pattern (Text.toAsciiLowercase host) = true →
            pathPrefixMatches route.pathPrefix path = false) := by
  have best : (compile config).matchRequest listener host path =
      (bestRoute Route.pattern config listener host path).map .ofRoute := by
    rw [matchRequest_compile, ListenerRoutes.matchRequest_ofRoutes, List.filter_filter, bestRoute,
      matchingRoutes]
    congr 2
    exact List.filter_congr fun route _ => Bool.and_comm _ _
  refine ⟨best, ?_⟩
  rw [best, Option.map_eq_none_iff, bestRoute, List.argmax_eq_none, matchingRoutes,
    List.filter_eq_nil_iff]
  simp only [Bool.and_eq_true, beq_iff_eq, not_and, Bool.not_eq_true]

/-- One route, for `*.B` in capitals. -/
def capitalWildcard : DynamicConfig where
  certificates := []
  listeners := []
  routes := [⟨⟨['r']⟩, ⟨['l']⟩, ['*', '.', 'B'], ['/'], .forward ['p']⟩]
  pools := []

/-- The trimmed pattern alone is not what a route matches by: the comparison of
    a wildcard's suffix is case-sensitive, and the table lowercases it first. -/
theorem matchRequest_ne_bestRoute_trimmed :
    (compile capitalWildcard).matchRequest ⟨['l']⟩ ['a', '.', 'b'] ['/'] ≠
      (bestRoute (fun route => Text.trim route.host) capitalWildcard ⟨['l']⟩ ['a', '.', 'b']
        ['/']).map .ofRoute := by
  decide

end RouteTable

end Gfe

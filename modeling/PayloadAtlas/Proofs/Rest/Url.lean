import Mathlib.Data.List.DropRight
import Mathlib.Data.Prod.Basic
import PayloadAtlas.Proofs.Rest.Percent
import PayloadAtlas.Rest.Url

/-!
# What comes after an address

A text that goes on after an address and a slash is read as an address below it (`Url.ofString?_append_slash`): host
and port stay, and what was added is cut at its slashes and put after the segments of the path (`Url.under`). Each of
its pieces becomes a segment, as far as no dots take it back (`Url.resolve_eq_concat`).
-/

namespace PayloadAtlas.Url

variable {p : Char → Bool} {c : Char} {as bs cs before after piece : List Char} {done front back : List (List Char)}

/-! ## Cutting -/

theorem takeWhile_append_cons (hc : p c = false) (as bs : List Char) :
    (as ++ c :: bs).takeWhile p = as.takeWhile p := by
  induction as with
  | nil => rw [List.nil_append, List.takeWhile_cons_of_neg (by simp [hc]), List.takeWhile_nil]
  | cons a as ih => rw [List.cons_append, List.takeWhile_cons, List.takeWhile_cons, ih]

theorem dropWhile_append_cons (hc : p c = false) (as bs : List Char) :
    (as ++ c :: bs).dropWhile p = as.dropWhile p ++ c :: bs := by
  induction as with
  | nil => rw [List.nil_append, List.dropWhile_cons_of_neg (by simp [hc]), List.dropWhile_nil, List.nil_append]
  | cons a as ih =>
    rw [List.cons_append, List.dropWhile_cons, List.dropWhile_cons, ih]
    split <;> rfl

theorem rdropWhile_append_cons (hc : p c = false) (as bs : List Char) :
    (as ++ c :: bs).rdropWhile p = as ++ c :: bs.rdropWhile p := by
  rw [List.rdropWhile, List.reverse_append, List.reverse_cons, List.append_assoc, List.singleton_append,
    dropWhile_append_cons hc]
  simp [List.rdropWhile]

/-- Where a text is cut by `cutAt` at a character, what comes after it makes no difference. -/
theorem cutAt_append (h : cutAt p as = some (before, after)) (bs : List Char) :
    cutAt p (as ++ bs) = some (before, after ++ bs) := by
  induction as generalizing before after with
  | nil => cases h
  | cons a as ih =>
    rw [cutAt] at h
    rw [List.cons_append, cutAt]
    split_ifs at h ⊢
    · cases h
      rfl
    · obtain ⟨⟨before', after'⟩, hcut, heq⟩ := Option.map_eq_some_iff.mp h
      cases heq
      rw [ih hcut]
      rfl

theorem sublist_of_cutAt (h : cutAt p as = some (before, after)) : after.Sublist as := by
  induction as generalizing before after with
  | nil => cases h
  | cons a as ih =>
    rw [cutAt] at h
    split_ifs at h
    · cases h
      exact List.sublist_cons_self a _
    · obtain ⟨⟨before', after'⟩, hcut, heq⟩ := Option.map_eq_some_iff.mp h
      cases heq
      exact (ih hcut).cons a

/-- If a text has no such character, it is cut further on. -/
theorem cutAt_append_of_none (h : cutAt p as = none) (bs : List Char) :
    cutAt p (as ++ bs) = (cutAt p bs).map fun (a, b) => (as ++ a, b) := by
  induction as with
  | nil => simp
  | cons a as ih =>
    rw [cutAt] at h
    rw [List.cons_append, cutAt]
    split_ifs at h ⊢
    rw [ih (Option.map_eq_none_iff.mp h), Option.map_map]
    rfl

theorem cutAt_of_forall (h : ∀ c ∈ as, p c = false) : cutAt p as = none := by
  induction as with
  | nil => rfl
  | cons a as ih =>
    rw [cutAt, if_neg (by simp [h a]), ih fun c hc => h c (List.mem_cons_of_mem _ hc), Option.map_none]

theorem cutAt_of_notMem (h : c ∉ cs) : cutAt (· == c) cs = none :=
  cutAt_of_forall fun _ hd => beq_eq_false_iff_ne.mpr fun heq => h (heq ▸ hd)

theorem splitAt_of_notMem (h : c ∉ cs) : splitAt c cs = (cs, none) := by
  rw [splitAt, cutAt_of_notMem h]

theorem splitAt_append_of_notMem (h : c ∉ as) (bs : List Char) :
    splitAt c (as ++ bs) = (as ++ (splitAt c bs).1, (splitAt c bs).2) := by
  rw [splitAt, splitAt, cutAt_append_of_none (cutAt_of_notMem h)]
  cases cutAt (· == c) bs <;> rfl

/-- What is before the first `c` is the text up to it. -/
theorem splitAt_fst (c : Char) (cs : List Char) : (splitAt c cs).1 = cs.takeWhile (· != c) := by
  induction cs with
  | nil => rfl
  | cons d cs ih =>
    rw [splitAt, cutAt]
    rw [splitAt] at ih
    by_cases hd : d = c
    · simp [hd]
    · rw [if_neg (by simpa using hd), List.takeWhile_cons_of_pos (by simpa using hd), ← ih]
      cases cutAt (· == c) cs <;> rfl

theorem splitAt_fst_sublist (c : Char) (cs : List Char) : (splitAt c cs).1.Sublist cs :=
  splitAt_fst c cs ▸ (List.takeWhile_prefix _).sublist

theorem notMem_splitAt_fst (c : Char) (cs : List Char) : c ∉ (splitAt c cs).1 := by
  intro h
  rw [splitAt_fst] at h
  simpa using List.mem_takeWhile_imp h

/-! ## Slashes -/

theorem cutSlashes_ne_nil (cs : List Char) : cutSlashes cs ≠ [] := by
  cases cs with
  | nil => simp [cutSlashes]
  | cons c cs =>
    rw [cutSlashes]
    split
    · simp
    · split <;> simp

/-- At a slash both sides are cut by `cutSlashes` each by itself. -/
theorem cutSlashes_append (hc : isSlash c) (as bs : List Char) :
    cutSlashes (as ++ c :: bs) = cutSlashes as ++ cutSlashes bs := by
  induction as with
  | nil =>
    obtain ⟨piece, pieces, hbs⟩ := List.exists_cons_of_ne_nil (cutSlashes_ne_nil bs)
    simp [cutSlashes, hbs, hc]
  | cons a as ih =>
    obtain ⟨piece, pieces, has⟩ := List.exists_cons_of_ne_nil (cutSlashes_ne_nil as)
    rw [List.cons_append, cutSlashes, cutSlashes, ih, has]
    dsimp only [List.cons_append]
    split <;> rfl

theorem cutSlashes_of_forall (h : ∀ c ∈ cs, isSlash c = false) : cutSlashes cs = [cs] := by
  induction cs with
  | nil => rfl
  | cons c cs ih =>
    rw [cutSlashes, ih fun d hd => h d (List.mem_cons_of_mem _ hd)]
    exact if_neg (by simp [h c])

/-- A piece is left of the text, and has no slash. -/
theorem of_mem_cutSlashes (h : piece ∈ cutSlashes cs) : piece.Sublist cs ∧ ∀ c ∈ piece, isSlash c = false := by
  induction cs generalizing piece with
  | nil => simp_all [cutSlashes]
  | cons c cs ih =>
    obtain ⟨first, others, hcs⟩ := List.exists_cons_of_ne_nil (cutSlashes_ne_nil cs)
    rw [cutSlashes, hcs] at h
    rw [hcs] at ih
    have hlater {piece} (h : piece ∈ first :: others) :
        piece.Sublist (c :: cs) ∧ ∀ c ∈ piece, isSlash c = false :=
      ⟨(ih h).1.cons c, (ih h).2⟩
    cases hslash : isSlash c with
    | true =>
      simp only [hslash, if_true, List.mem_cons] at h
      rcases h with rfl | h
      · exact ⟨List.nil_sublist _, nofun⟩
      · exact hlater (List.mem_cons.mpr h)
    | false =>
      simp only [hslash, Bool.false_eq_true, if_false, List.mem_cons] at h
      rcases h with rfl | h
      · obtain ⟨hsub, hplain⟩ := ih List.mem_cons_self
        exact ⟨hsub.cons_cons c, List.forall_mem_cons.mpr ⟨hslash, hplain⟩⟩
      · exact hlater (List.mem_cons_of_mem _ h)

/-! ## Dots -/

/-- The segments, the last one first, that are left of `done` when others follow. -/
def climb : List (List Char) → List (List Char) → List (List Char)
  | done, [] => done
  | done, s :: rest =>
    if dotsOf s = ['.'] then climb done rest
    else if dotsOf s = ['.', '.'] then climb done.tail rest
    else climb (s :: done) rest

/-- The segments in front are dealt with by `resolve` before those at the back. -/
theorem resolve_append (hback : back ≠ []) (done front : List (List Char)) :
    resolve done (front ++ back) = resolve (climb done front) back := by
  induction front generalizing done with
  | nil => rfl
  | cons s front ih =>
    rw [List.cons_append, resolve.eq_3 _ _ _ (by simp [hback]), climb]
    split_ifs <;> exact ih _

/-- A slash at the end leaves an empty segment in `resolve`. -/
theorem resolve_empty (done : List (List Char)) : resolve done [[]] = done.reverse ++ [[]] := by
  simp [resolve, dotsOf]

/-- The last segment is one of those that were put in, if it is not empty. -/
theorem resolve_eq_concat (hback : back ≠ []) (done : List (List Char)) :
    ∃ front last, resolve done back = front ++ [last] ∧ (last = [] ∨ last ∈ back) := by
  obtain ⟨others, last, rfl⟩ := List.eq_nil_or_concat' back |>.resolve_left hback
  rw [resolve_append (by simp), resolve]
  split_ifs
  · exact ⟨_, [], List.reverse_cons, .inl rfl⟩
  · exact ⟨_, [], List.reverse_cons, .inl rfl⟩
  · exact ⟨_, last, List.reverse_cons, .inr (by simp)⟩

/-- Segments that are no dots are put after those that were `done`. -/
theorem resolve_of_forall (h : ∀ s ∈ back, dotsOf s ≠ ['.'] ∧ dotsOf s ≠ ['.', '.']) (done : List (List Char)) :
    resolve done back = done.reverse ++ back := by
  induction back generalizing done with
  | nil => rw [resolve, List.append_nil]
  | cons s rest ih =>
    obtain ⟨⟨hdot, hdots⟩, hrest⟩ := List.forall_mem_cons.mp h
    cases rest with
    | nil => rw [resolve, if_neg hdot, if_neg hdots, List.reverse_cons]
    | cons t rest =>
      rw [resolve.eq_3 _ _ _ (by simp), if_neg hdot, if_neg hdots, ih hrest, List.reverse_cons, List.append_assoc]
      rfl

/-- What is read by `dotsOf` as dots stands for dots, whether they are escaped or not. -/
theorem decode_of_dotsOf {n : Nat} (h : dotsOf cs = List.replicate n '.') :
    Percent.decode cs = List.replicate n 0x2E := by
  induction n generalizing cs with
  | zero =>
    rw [dotsOf.eq_def] at h
    split at h
    · cases h
    · cases h
    · cases h
    · rfl
  | succ n ih =>
    rw [List.replicate_succ] at h ⊢
    rw [dotsOf.eq_def] at h
    split at h
    · rw [Percent.decode, ← ih (List.cons.inj h).2]
      rfl
    · rw [Percent.decode, ← ih (List.cons.inj h).2]
      rfl
    · obtain ⟨rfl, hrest⟩ := List.cons.inj h
      rw [Percent.decode_of_not_opens (Percent.not_opens_of_ne (by decide)), ih hrest]
      rfl
    · cases h

/-! ## Parts of an address -/

/-- Whether a host ends at a character. -/
def endsHost (c : Char) : Bool := isSlash c || c == '?' || c == '#'

/-- The host and the port in what comes after a protocol, without the name of a user. -/
def authority (cs : List Char) : List Char :=
  (((cs.dropWhile isSlash).takeWhile fun c => !endsHost c).reverse.takeWhile (· != '@')).reverse

/-- What comes after the host and the port: path, query and fragment. -/
def location (cs : List Char) : List Char := (cs.dropWhile isSlash).dropWhile fun c => !endsHost c

/-- The path and the query in what comes after the host and the port. -/
def pathAndQuery (cs : List Char) : List Char × Option (List Char) := splitAt '?' (splitAt '#' cs).1

/-- The text of a query, with what may not stand there escaped. -/
def queryText (query : Option (List Char)) : Option String :=
  query.map fun q => String.ofList (Percent.encode Percent.inQuery q)

/-- An address with the path and the query of a text. -/
def ofParts (protocol : Protocol) (host : String) (port : Nat) (cs : List Char) : Url :=
  { protocol, host, port, path := segments (pathAndQuery cs).1, query := queryText (pathAndQuery cs).2 }

/-- An address has a protocol that is known, and a host that can be read; its path and query are then read as
`ofParts` says. -/
theorem ofString?_eq_some_iff {s : String} {u : Url} : ofString? s = some u ↔
    ∃ name rest protocol host port, cutAt (· == ':') (clean s) = some (name, rest) ∧
      Protocol.ofName? name = some protocol ∧ hostOf? protocol.port (authority rest) = some (host, port) ∧
      ofParts protocol host port (location rest) = u := by
  simp only [ofString?, Option.bind_eq_bind, Option.bind_eq_some_iff]
  constructor
  · rintro ⟨⟨name, rest⟩, hcut, protocol, hname, ⟨host, port⟩, hhost, hu⟩
    exact ⟨name, rest, protocol, host, port, hcut, hname, hhost, Option.some.inj hu⟩
  · rintro ⟨name, rest, protocol, host, port, hcut, hname, hhost, hu⟩
    exact ⟨(name, rest), hcut, protocol, hname, (host, port), hhost, congrArg some hu⟩

theorem dropWhile_isSlash_append (h : ∃ c ∈ as, isSlash c = false) (bs : List Char) :
    (as ++ bs).dropWhile isSlash = as.dropWhile isSlash ++ bs := by
  obtain ⟨c, hc, hslash⟩ := h
  rw [List.dropWhile_append, if_neg]
  simp only [List.isEmpty_iff, List.dropWhile_eq_nil_iff, not_forall]
  exact ⟨c, hc, by simp [hslash]⟩

theorem authority_append (h : ∃ c ∈ as, isSlash c = false) (cs : List Char) :
    authority (as ++ '/' :: cs) = authority (as ++ ['/']) := by
  simp only [authority, dropWhile_isSlash_append h]
  rw [takeWhile_append_cons (by decide), takeWhile_append_cons (by decide)]

theorem location_append (h : ∃ c ∈ as, isSlash c = false) (cs : List Char) :
    location (as ++ '/' :: cs) = location as ++ '/' :: cs := by
  rw [location, dropWhile_isSlash_append h, dropWhile_append_cons (by decide)]
  rfl

theorem exists_of_hostOf? {usual : Nat} {found : String × Nat}
    (h : hostOf? usual (authority (as ++ ['/'])) = some found) : ∃ c ∈ as, isSlash c = false := by
  by_contra hall
  have hslashes : (as ++ ['/']).dropWhile isSlash = [] := by
    rw [List.dropWhile_eq_nil_iff, List.forall_mem_append]
    exact ⟨fun c hc => Bool.of_not_eq_false fun hslash => hall ⟨c, hc, hslash⟩, by simp [isSlash]⟩
  rw [authority, hslashes] at h
  cases h

/-! ## Addresses below an address -/

/-- The end of an address as it is read: without blanks after it, line ends and tabs. -/
def tidy (cs : List Char) : List Char :=
  (cs.rdropWhile fun c => c.toNat ≤ 0x20).filter fun c => c != '\t' && c != '\n' && c != '\r'

/-- The segments of a path that goes on after others, of which the last one comes first. -/
def segmentsAfter (done : List (List Char)) (path : List Char) : List String :=
  (resolve done ((cutSlashes path).map (Percent.encode Percent.inPath))).map String.ofList

/-- An address with a text after it, which may add segments, climb, and add a query. -/
def under (base : Url) (r : String) : Url :=
  { base with
    path := segmentsAfter (base.path.dropLast.map String.toList).reverse (pathAndQuery (tidy r.toList)).1
    query := queryText (pathAndQuery (tidy r.toList)).2 }

theorem path_under (base : Url) (r : String) : (base.under r).path =
    segmentsAfter (base.path.dropLast.map String.toList).reverse (pathAndQuery (tidy r.toList)).1 := by
  rw [under]

theorem query_under (base : Url) (r : String) : (base.under r).query = queryText (pathAndQuery (tidy r.toList)).2 := by
  rw [under]

/-- Whether two addresses lead to one server. -/
def SameServer (u v : Url) : Prop := u.protocol = v.protocol ∧ u.host = v.host ∧ u.port = v.port

theorem SameServer.trans {u v w : Url} (h : u.SameServer v) (h' : v.SameServer w) : u.SameServer w :=
  ⟨h.1.trans h'.1, h.2.1.trans h'.2.1, h.2.2.trans h'.2.2⟩

theorem under_sameServer (base : Url) (r : String) : (base.under r).SameServer base := by
  simp only [SameServer, under, and_self]

/-- Parameters that `addFields` adds leave the server alone. -/
theorem addFields_sameServer (u : Url) (fields : List (String × String)) : (u.addFields fields).SameServer u := by
  rw [addFields]
  split <;> exact ⟨rfl, rfl, rfl⟩

/-- Parameters that `addFields` adds leave the path alone. -/
theorem path_addFields (u : Url) (fields : List (String × String)) : (u.addFields fields).path = u.path := by
  rw [addFields]
  split <;> rfl

/-- The query is that of the parameters, if there was none. -/
theorem query_addFields {u : Url} (h : u.query = none) (fields : List (String × String)) :
    (u.addFields fields).query = some (String.ofList (Percent.form fields)) := by
  rw [addFields, h]

/-- Blanks before and after the whole are cut off, and line ends and tabs are passed over everywhere. -/
theorem clean_append_slash (b r : String) : clean (b ++ "/" ++ r) =
    ((b.toList.dropWhile fun c => c.toNat ≤ 0x20).filter fun c => c != '\t' && c != '\n' && c != '\r') ++
      '/' :: tidy r.toList := by
  have hchars : (b ++ "/" ++ r).toList = b.toList ++ '/' :: r.toList := by simp
  have hslash : decide ('/'.toNat ≤ 0x20) = false := by decide
  rw [clean, hchars, dropWhile_append_cons hslash]
  show ((_ ++ '/' :: r.toList).rdropWhile _).filter _ = _
  rw [rdropWhile_append_cons hslash, List.filter_append, List.filter_cons_of_pos (by decide)]
  rfl

/-- Before a slash segments are dealt with by themselves, so that those after it go on from what is left. -/
theorem exists_segments_append (as : List Char) :
    ∃ front, ∀ cs, segments (as ++ '/' :: cs) = segmentsAfter front cs := by
  have hback (cs) : (cutSlashes cs).map (Percent.encode Percent.inPath) ≠ [] := by simp [cutSlashes_ne_nil]
  cases as with
  | nil => exact ⟨[], fun cs => rfl⟩
  | cons c as =>
    cases hc : isSlash c with
    | true =>
      refine ⟨climb [] ((cutSlashes as).map (Percent.encode Percent.inPath)), fun cs => ?_⟩
      rw [List.cons_append, segments]
      simp only [hc, if_true]
      rw [cutSlashes_append rfl, List.map_append, resolve_append (hback cs), segmentsAfter]
    | false =>
      refine ⟨climb [] ((cutSlashes (c :: as)).map (Percent.encode Percent.inPath)), fun cs => ?_⟩
      rw [List.cons_append, segments]
      simp only [hc, Bool.false_eq_true, if_false]
      rw [← List.cons_append, cutSlashes_append rfl, List.map_append, resolve_append (hback cs), segmentsAfter]

theorem splitAt_append_slash (hc : c ≠ '/') (has : c ∉ as) (cs : List Char) :
    splitAt c (as ++ '/' :: cs) = (as ++ '/' :: (splitAt c cs).1, (splitAt c cs).2) := by
  have hfront : c ∉ as ++ ['/'] := by simp [has, hc]
  rw [List.append_cons, splitAt_append_of_notMem hfront, List.append_assoc, List.singleton_append]

theorem pathAndQuery_append_slash (hquery : '?' ∉ as) (hfragment : '#' ∉ as) (cs : List Char) :
    pathAndQuery (as ++ '/' :: cs) = (as ++ '/' :: (pathAndQuery cs).1, (pathAndQuery cs).2) := by
  rw [pathAndQuery, splitAt_append_slash (by decide) hfragment, splitAt_append_slash (by decide) hquery, pathAndQuery]

theorem segmentsAfter_nil (done : List (List Char)) :
    segmentsAfter done [] = (done.reverse.map String.ofList) ++ [""] := by
  rw [segmentsAfter, show (cutSlashes []).map (Percent.encode Percent.inPath) = [[]] from rfl, resolve_empty,
    List.map_append]
  rfl

/-- What goes on after an address that a slash ends is read as part of it. -/
theorem under_ofParts (hquery : '?' ∉ as) (hfragment : '#' ∉ as) (protocol : Protocol) (host : String) (port : Nat)
    (r : String) :
    (ofParts protocol host port (as ++ ['/'])).under r = ofParts protocol host port (as ++ '/' :: tidy r.toList) := by
  obtain ⟨front, hsegments⟩ := exists_segments_append as
  have hparts (cs) : ofParts protocol host port (as ++ '/' :: cs) =
      { protocol, host, port, path := segmentsAfter front (pathAndQuery cs).1,
        query := queryText (pathAndQuery cs).2 } := by
    rw [ofParts, pathAndQuery_append_slash hquery hfragment, hsegments]
  have hdone : ((segmentsAfter front []).dropLast.map String.toList).reverse = front := by
    rw [segmentsAfter_nil]
    simp
  rw [hparts, hparts, under]
  simp only [show pathAndQuery [] = ([], none) from rfl, hdone]

/-- A text after an address and a `/` names an address below it. -/
theorem ofString?_append_slash {b : String} {base : Url} (h : ofString? (b ++ "/") = some base)
    (hquery : '?' ∉ b.toList) (hfragment : '#' ∉ b.toList) (r : String) :
    ofString? (b ++ "/" ++ r) = some (base.under r) := by
  rw [← String.append_empty (s := b ++ "/"), ofString?_eq_some_iff, clean_append_slash] at h
  rw [ofString?_eq_some_iff, clean_append_slash]
  set front := (b.toList.dropWhile fun c => c.toNat ≤ 0x20).filter fun c => c != '\t' && c != '\n' && c != '\r'
  have hsub : front.Sublist b.toList := List.filter_sublist.trans (List.dropWhile_sublist _)
  obtain ⟨name, rest, protocol, host, port, hcut, hprotocol, hhost, hbase⟩ := h
  -- the protocol ends before the slash, as the address by itself has one
  cases hfront : cutAt (· == ':') front with
  | none =>
    rw [cutAt_append_of_none hfront] at hcut
    cases hcut
  | some named =>
    obtain ⟨name', rest'⟩ := named
    rw [cutAt_append hfront] at hcut ⊢
    cases hcut
    have hsome := exists_of_hostOf? hhost
    refine ⟨_, _, protocol, host, port, rfl, hprotocol, ?_, ?_⟩
    · rw [authority_append hsome]
      exact hhost
    · have hlocation : (location rest').Sublist b.toList :=
        ((List.dropWhile_sublist _).trans (List.dropWhile_sublist _)).trans ((sublist_of_cutAt hfront).trans hsub)
      rw [location_append hsome, ← hbase, location_append hsome]
      exact (under_ofParts (fun h => hquery (hlocation.subset h)) (fun h => hfragment (hlocation.subset h)) ..).symm

end PayloadAtlas.Url

import StreamConfig.Proofs.Document.Passing
import StreamConfig.Proofs.Document.Trails

/-! # Ready trails

A trail may be far behind the place that a walk over a text has come to, and still be as good as one
that has come there: what lies between holds no key that a search could stop at.
* `Trail.IsReady` — the trail finds the same keys as a search from the place
* `pass`, `passFree`, `passQuoted` — the place moves on over what is no key
* `follow`, `astray` — the place is at a key, which is found there if its colon is on its line and
  has another position if not
-/

namespace StreamConfig

/-- A trail has come as far as it should: it finds the same keys as a search from the place between
the two texts, and its last position stands in the first of them. -/
structure Trail.IsReady (t : Trail) (behind rest : List Char) : Prop where
  seeks : ∀ key, IsPlainKey key →
    t.cursor.seek key 0 = (Cursor.between behind rest).seek key 0
  last : ∃ cs, cs <+: behind ∧ t.last = Position.behind cs

namespace Trail.IsReady

variable {t : Trail} {behind rest : List Char}

theorem start (source : String) : (Trail.start source).IsReady [] source.toList :=
  ⟨fun _ _ => rfl, [], List.nil_prefix, rfl⟩

theorem pass {passed : List Char} (h : t.IsReady behind (passed ++ rest))
    (hpassed : ∀ c ∈ passed, isBare c = true) (hkeyless : Keyless (passed ++ rest)) :
    t.IsReady (behind ++ passed) rest := by
  obtain ⟨cs, hcs, hlast⟩ := h.last
  refine ⟨fun key hkey => ?_, cs, hcs.trans (List.prefix_append ..), hlast⟩
  rw [h.seeks key hkey, Cursor.seek_bare hkey hpassed hkeyless]

theorem passFree {passed : List Char} (h : t.IsReady behind (passed ++ rest))
    (hpassed : ∀ c ∈ passed, isBare c = true ∧ c ≠ ':') (hrest : isColonFree rest = true) :
    t.IsReady (behind ++ passed) rest :=
  h.pass (fun c hc => (hpassed c hc).1)
    (keyless_of_isColonFree (isColonFree_append (fun c hc => (hpassed c hc).2) hrest))

theorem passOne {c : Char} (h : t.IsReady behind (c :: rest)) (hc : isBare c = true ∧ c ≠ ':')
    (hrest : isColonFree rest = true) : t.IsReady (behind ++ [c]) rest := by
  have hone : t.IsReady behind ([c] ++ rest) := h
  exact hone.passFree (List.forall_mem_singleton.2 hc) hrest

theorem passQuoted {body : List Char} (h : t.IsReady behind ('"' :: (body ++ '"' :: rest)))
    (hstart : StartsToken behind) (hbody : isQuotedBody body = true)
    (hcolon : isBeforeColon rest = false) :
    t.IsReady (behind ++ '"' :: (body ++ ['"'])) rest := by
  obtain ⟨cs, hcs, hlast⟩ := h.last
  refine ⟨fun key hkey => ?_, cs, hcs.trans (List.prefix_append ..), hlast⟩
  have hpass := Cursor.seek_quoted key rest hstart hbody (by simp [hcolon])
  rw [List.cons_append] at hpass
  rw [h.seeks key hkey, hpass]
  simp

variable {key : String} (h : t.IsReady behind ('"' :: (key.toList ++ '"' :: rest)))
  (hstart : StartsToken behind) (hkey : IsPlainKey key.toList)
  (hbody : isQuotedBody key.toList = true)

include h hstart hkey hbody

/-- A key with its colon on its line is found at its own place. -/
theorem follow (hcolon : isBeforeColon rest = true) :
    (t.follow key).last = Position.behind (behind ++ ['"']) ∧
      (t.follow key).IsReady (behind ++ ['"'] ++ key.toList ++ ['"']) rest := by
  have hfind : t.cursor.find key =
      some (Cursor.between (behind ++ ['"']) (key.toList ++ '"' :: rest)) := by
    rw [Cursor.find_eq_seek, h.seeks _ hkey]
    exact Cursor.seek_quoted_key hstart hbody hcolon
  have hfollow : t.follow key = ⟨Cursor.between (behind ++ ['"'] ++ key.toList) ('"' :: rest),
      Position.behind (behind ++ ['"'])⟩ := by
    unfold Trail.follow
    rw [hfind]
    dsimp only
    rw [Cursor.advance_between, List.take_left, List.drop_left]
    rfl
  rw [hfollow]
  refine ⟨rfl, fun key' _ => ?_, behind ++ ['"'], ?_, rfl⟩
  · exact Cursor.seek_closing hkey.endsInside rest
  · rw [List.append_assoc (behind ++ ['"'])]
    exact List.prefix_append ..

/-- A key whose colon is on another line is not found at its own place. -/
theorem astray (hcolon : isBeforeColon rest = false) :
    (t.follow key).last ≠ Position.behind (behind ++ ['"']) := by
  have hseek : t.cursor.find key =
      (Cursor.between (behind ++ '"' :: (key.toList ++ ['"'])) rest).seek key.toList 0 := by
    have hpass := Cursor.seek_quoted key.toList rest hstart hbody (by simp [hcolon])
    rw [List.cons_append] at hpass
    rw [Cursor.find_eq_seek, h.seeks _ hkey, hpass]
    simp
  unfold Trail.follow
  cases hfind : t.cursor.find key with
  | some c =>
    -- what is found instead stands behind the key
    rw [hseek] at hfind
    obtain ⟨passed, left, -, rfl⟩ := Cursor.exists_between_of_seek hfind
    have hlater : behind ++ '"' :: (key.toList ++ ['"']) ++ passed =
        behind ++ ['"'] ++ (key.toList ++ '"' :: passed) := by simp
    rw [hlater]
    exact Position.behind_ne (List.append_ne_nil_of_right_ne_nil _ (List.cons_ne_nil _ _))
  | none =>
    obtain ⟨cs, ⟨more, rfl⟩, hlast⟩ := h.last
    dsimp only
    rw [hlast, List.append_assoc]
    exact (Position.behind_ne (List.append_ne_nil_of_right_ne_nil _ (List.cons_ne_nil _ _))).symm

end Trail.IsReady

end StreamConfig

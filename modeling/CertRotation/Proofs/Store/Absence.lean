import CertRotation.Proofs.Store.Interleaving

namespace CertRotation

namespace DirectoryStore

variable {α : Type} {store : DirectoryStore} {id : WebhookIdentity} {tree made : FileTree}
  {location : Location} {versions : List StoredVersion} {version : StoredVersion}
  {writers : Writers}

/-- A program makes its calls while the writers move, as scheduled, between each call and the next.
It ends with a value, and the writers where they are then. -/
def takeTurns (store : DirectoryStore) (id : WebhookIdentity) :
    FileProgram α → List (List Move) → Writers → α × Writers
  | .done value, _, writers => (value, writers)
  | .ask operation next, schedules, writers =>
    let outcome := FileOperation.run operation writers.tree
    takeTurns store id (next outcome.1) schedules.tail
      ({ writers with tree := outcome.2 }.moves store id (schedules.headD []))

theorem takeTurns_ask {operation : FileOperation}
    {next : Except FileFault operation.Value → FileProgram α}
    {answer : Except FileFault operation.Value}
    (hrun : operation.run writers.tree = (answer, writers.tree)) (schedules : List (List Move)) :
    takeTurns store id (.ask operation next) schedules writers =
      takeTurns store id (next answer) schedules.tail
        (writers.moves store id (schedules.headD [])) := by
  change (fun outcome : Except FileFault operation.Value × FileTree =>
    takeTurns store id (next outcome.1) schedules.tail
      (Writers.moves store id { writers with tree := outcome.2 } (schedules.headD [])))
    (operation.run writers.tree) = _
  rw [hrun]

/-- A reader finds the version that was served when it asked where to look, or nothing, if another
version has been switched to by the time of its last call. -/
theorem Writers.Sound.takeTurns_get (h : writers.Sound (store.identityDir id) location)
    (beforeKey beforeCert : List Move) :
    let (result, last) := takeTurns store id (store.get id).run [beforeKey, beforeCert] writers
    result = .ok (writers.swapped.head?.map StoredVersion.material) ∨
      result = .ok none ∧ ∃ newer, newer ≠ [] ∧ last.swapped = newer ++ writers.swapped := by
  have hlink := h.serves.run_readLink
  rcases hhead : writers.swapped.head? with _ | version
  · rw [hhead] at hlink
    rw [show takeTurns store id (store.get id).run [beforeKey, beforeCert] writers =
      (.ok none, writers.moves store id beforeKey) from takeTurns_ask hlink _]
    exact .inl rfl
  rw [hhead] at hlink
  have hmem := List.mem_of_mem_head? hhead
  have hnewer : ∀ {swapped}, writers.swapped <:+ swapped → version ∉ swapped.head? →
      ∃ newer, newer ≠ [] ∧ swapped = newer ++ writers.swapped := by
    rintro _ ⟨newer, rfl⟩ hreplaced
    refine ⟨newer, ?_, rfl⟩
    rintro rfl
    exact hreplaced hhead
  have hsound := h.moves beforeKey
  have hsound' := hsound.moves beforeCert
  have hgrown := writers.suffix_moves store id beforeKey
  have hgrown' := (writers.moves store id beforeKey).suffix_moves store id beforeCert
  have hkey := hsound.serves.run_read (hgrown.subset hmem) isName_keyFile
    (layout_version_keyFile ..)
  have hcert := hsound'.serves.run_read (hgrown'.subset (hgrown.subset hmem)) isName_certFile
    (layout_version_certFile ..)
  rcases hkey with hkey | ⟨hkey, hreplaced⟩
  · rcases hcert with hcert | ⟨hcert, hreplaced⟩
    · rw [show takeTurns store id (store.get id).run [beforeKey, beforeCert] writers =
        (.ok (some version.material), (writers.moves store id beforeKey).moves store id beforeCert)
        from ((takeTurns_ask hlink _).trans (takeTurns_ask hkey _)).trans (takeTurns_ask hcert _)]
      exact .inl rfl
    · rw [show takeTurns store id (store.get id).run [beforeKey, beforeCert] writers =
        (.ok none, (writers.moves store id beforeKey).moves store id beforeCert)
        from ((takeTurns_ask hlink _).trans (takeTurns_ask hkey _)).trans (takeTurns_ask hcert _)]
      exact .inr ⟨rfl, hnewer (hgrown.trans hgrown') hreplaced⟩
  · obtain ⟨newer, hne, heq⟩ := hnewer hgrown hreplaced
    obtain ⟨newest, hnewest⟩ := hgrown'
    have hlast : takeTurns store id (store.get id).run [beforeKey, beforeCert] writers =
        (.ok none, (writers.moves store id beforeKey).moves store id beforeCert) := by
      -- The certificate is asked for in any case.
      rcases hcert with hcert | ⟨hcert, -⟩
      · exact ((takeTurns_ask hlink _).trans (takeTurns_ask hkey _)).trans (takeTurns_ask hcert _)
      · exact ((takeTurns_ask hlink _).trans (takeTurns_ask hkey _)).trans (takeTurns_ask hcert _)
    rw [hlast]
    refine .inr ⟨rfl, newest ++ newer, by simp [hne], ?_⟩
    rw [← hnewest, heq, List.append_assoc]

theorem Writers.Sound.takeTurns_get_of_replaced (h : writers.Sound (store.identityDir id) location)
    (hserved : version ∈ writers.swapped.head?) {replacing : List Move}
    (hlacks : (writers.moves store id replacing).tree.Lacks
      (FilePath.join (store.identityDir id) version.name)) :
    (takeTurns store id (store.get id).run [replacing, []] writers).1 = .ok none := by
  have hlink := h.serves.run_readLink
  rw [hserved] at hlink
  have hkey := FileOperation.run_read_notFound (hlacks.find_join isName_keyFile true)
  have hcert := FileOperation.run_read_notFound (hlacks.find_join isName_certFile true)
  have hget : takeTurns store id (store.get id).run [replacing, []] writers =
      (.ok none, writers.moves store id replacing) :=
    ((takeTurns_ask hlink _).trans (takeTurns_ask hkey _)).trans (takeTurns_ask hcert _)
  rw [hget]

/-- What was stored can appear to be missing in one way alone. Whatever writers of an identity have
done, a reader that starts then finds the version that was switched to last, however the writers go
on between its calls, unless yet another version is switched to before its last call: then it may
find nothing. It never fails, and it never finds anything else. -/
theorem finds_served_or_replaced
    (h : IsVacant (store.identityDir id) location tree made versions)
    (schedule beforeKey beforeCert : List Move) :
    let writers := Writers.moves store id ⟨tree, [], none, versions⟩ schedule
    let (result, last) := takeTurns store id (store.get id).run [beforeKey, beforeCert] writers
    result = .ok (writers.swapped.head?.map StoredVersion.material) ∨
      result = .ok none ∧ ∃ newer, newer ≠ [] ∧ last.swapped = newer ++ writers.swapped :=
  (h.sound.moves schedule).takeTurns_get beforeKey beforeCert

/-- One version has been put, and another one is begun between the calls of a reader. -/
theorem finds_served_or_replaced_sample :
    ∃ schedule,
      let writers := Writers.moves Sample.certs Sample.mutating
        ⟨Sample.start, [], none, [Sample.first, Sample.second]⟩ schedule
      let (result, last) := takeTurns Sample.certs Sample.mutating
        (Sample.certs.get Sample.mutating).run [[.start, .call, .call], [.call, .call]] writers
      writers.swapped = [Sample.first] ∧ (result = .ok (some ⟨[1], [2]⟩) ∨
        result = .ok none ∧ ∃ newer, newer ≠ [] ∧ last.swapped = newer ++ [Sample.first]) := by
  obtain ⟨location, made, hvacant⟩ := Sample.isVacant
  obtain ⟨calls, after, hmoves⟩ := hvacant.sound.exists_calls rfl
  have hfinds := finds_served_or_replaced hvacant (.start :: List.replicate calls .call)
    [.start, .call, .call] [.call, .call]
  refine ⟨.start :: List.replicate calls .call, ?_⟩
  rw [hmoves] at hfinds ⊢
  exact ⟨rfl, hfinds⟩

/-- One version has been put and another one is put as a whole after a reader has asked where to
look, so that the reader finds nothing. -/
theorem finds_none_of_replaced :
    ∃ schedule replacing,
      let writers := Writers.moves Sample.certs Sample.mutating
        ⟨Sample.start, [], none, [Sample.first, Sample.second]⟩ schedule
      let replaced := writers.moves Sample.certs Sample.mutating replacing
      writers.swapped = [Sample.first] ∧
        writers.running = some (Sample.first, .done (.ok ())) ∧
        replaced.running = some (Sample.second, .done (.ok ())) ∧
        (takeTurns Sample.certs Sample.mutating (Sample.certs.get Sample.mutating).run
          [replacing, []] writers).1 = .ok none := by
  obtain ⟨location, made, hvacant⟩ := Sample.isVacant
  obtain ⟨calls, after, hmoves⟩ := hvacant.sound.exists_calls rfl
  have hsound := hvacant.sound.moves (.start :: List.replicate calls .call)
  rw [hmoves] at hsound
  obtain ⟨calls', after', hmoves', hlacks⟩ := hsound.exists_replaced rfl
  refine ⟨.start :: List.replicate calls .call, .start :: List.replicate calls' .call, ?_⟩
  rw [hmoves]
  refine ⟨rfl, rfl, ?_, hsound.takeTurns_get_of_replaced rfl ?_⟩
  · rw [hmoves']
  · rw [hmoves']
    exact hlacks Sample.first rfl

end DirectoryStore

end CertRotation

import UniMPI.Provenance

/-!
# Standard names

`unimpi_std_macros.h` lets a program write `MPI_Send` for `unimpi.send`. `Slot.stdName`
and `MtSlot.stdName` are its tables, and `standard_names_genuine` says what such a name
calls after any run: a function that a library which the run has opened exports under
that very name, one of the few local functions, or nothing.

`Genuine` is the invariant. It speaks of the members and of the functions recorded
behind the adapters, since a member may call through an adapter what an earlier fill
has recorded.
-/

namespace UniMPI

open Runs

/-! ## The macros -/

/-- The standard name that stands for a member. The five it does not name stand for functions of
the facade. -/
def Slot.stdName (s : Slot) : Option String :=
  match s with
  | .init | .initThread | .finalize | .initialized | .finalized => none
  | .abort => some "MPI_Abort" | .getProcessorName => some "MPI_Get_processor_name"
  | .getVersion => some "MPI_Get_version" | .getLibraryVersion => some "MPI_Get_library_version"
  | .wtime => some "MPI_Wtime" | .wtick => some "MPI_Wtick" | .barrier => some "MPI_Barrier"
  | .send => some "MPI_Send" | .recv => some "MPI_Recv" | .isend => some "MPI_Isend"
  | .irecv => some "MPI_Irecv" | .ibsend => some "MPI_Ibsend" | .irsend => some "MPI_Irsend"
  | .issend => some "MPI_Issend" | .wait => some "MPI_Wait" | .waitall => some "MPI_Waitall"
  | .sendrecv => some "MPI_Sendrecv" | .sendrecvReplace => some "MPI_Sendrecv_replace"
  | .bcast => some "MPI_Bcast" | .reduce => some "MPI_Reduce"
  | .reduceLocal => some "MPI_Reduce_local" | .allreduce => some "MPI_Allreduce"
  | .gather => some "MPI_Gather" | .allgather => some "MPI_Allgather"
  | .scatter => some "MPI_Scatter" | .commSize => some "MPI_Comm_size"
  | .commRank => some "MPI_Comm_rank" | .commDup => some "MPI_Comm_dup"
  | .commSplit => some "MPI_Comm_split" | .commFree => some "MPI_Comm_free"
  | .ssend => some "MPI_Ssend" | .ssendInit => some "MPI_Ssend_init" | .bsend => some "MPI_Bsend"
  | .bsendInit => some "MPI_Bsend_init" | .bufferAttach => some "MPI_Buffer_attach"
  | .bufferDetach => some "MPI_Buffer_detach" | .rsend => some "MPI_Rsend"
  | .rsendInit => some "MPI_Rsend_init" | .test => some "MPI_Test" | .testany => some "MPI_Testany"
  | .testsome => some "MPI_Testsome" | .testall => some "MPI_Testall"
  | .waitany => some "MPI_Waitany" | .waitsome => some "MPI_Waitsome" | .probe => some "MPI_Probe"
  | .iprobe => some "MPI_Iprobe" | .mprobe => some "MPI_Mprobe" | .improbe => some "MPI_Improbe"
  | .mrecv => some "MPI_Mrecv" | .imrecv => some "MPI_Imrecv" | .sendInit => some "MPI_Send_init"
  | .recvInit => some "MPI_Recv_init" | .start => some "MPI_Start"
  | .startall => some "MPI_Startall" | .requestFree => some "MPI_Request_free"
  | .requestGetStatus => some "MPI_Request_get_status"
  | .grequestStart => some "MPI_Grequest_start" | .grequestComplete => some "MPI_Grequest_complete"
  | .cancel => some "MPI_Cancel" | .testCancelled => some "MPI_Test_cancelled"
  | .getCount => some "MPI_Get_count" | .getElements => some "MPI_Get_elements"
  | .statusGetSource => some "MPI_Status_get_source" | .statusGetTag => some "MPI_Status_get_tag"
  | .statusGetError => some "MPI_Status_get_error" | .gatherv => some "MPI_Gatherv"
  | .allgatherv => some "MPI_Allgatherv" | .scatterv => some "MPI_Scatterv"
  | .alltoall => some "MPI_Alltoall" | .alltoallv => some "MPI_Alltoallv"
  | .alltoallw => some "MPI_Alltoallw" | .reduceScatter => some "MPI_Reduce_scatter"
  | .reduceScatterBlock => some "MPI_Reduce_scatter_block" | .scan => some "MPI_Scan"
  | .exscan => some "MPI_Exscan" | .typeCommit => some "MPI_Type_commit"
  | .typeFree => some "MPI_Type_free" | .typeContiguous => some "MPI_Type_contiguous"
  | .typeVector => some "MPI_Type_vector" | .typeIndexed => some "MPI_Type_indexed"
  | .typeCreateIndexedBlock => some "MPI_Type_create_indexed_block"
  | .typeCreateSubarray => some "MPI_Type_create_subarray" | .typeDup => some "MPI_Type_dup"
  | .typeCreateResized => some "MPI_Type_create_resized"
  | .typeCreateHvector => some "MPI_Type_create_hvector"
  | .typeCreateHindexed => some "MPI_Type_create_hindexed"
  | .typeCreateStruct => some "MPI_Type_create_struct" | .typeStruct => some "MPI_Type_struct"
  | .typeMatchSize => some "MPI_Type_match_size"
  | .typeCreateF90Integer => some "MPI_Type_create_f90_integer"
  | .typeCreateF90Real => some "MPI_Type_create_f90_real"
  | .typeCreateF90Complex => some "MPI_Type_create_f90_complex"
  | .typeHvector => some "MPI_Type_hvector" | .typeHindexed => some "MPI_Type_hindexed"
  | .typeCreateDarray => some "MPI_Type_create_darray"
  | .typeGetExtent => some "MPI_Type_get_extent" | .typeGetSize => some "MPI_Type_get_size"
  | .typeGetName => some "MPI_Type_get_name" | .typeSetName => some "MPI_Type_set_name"
  | .typeGetTrueExtent => some "MPI_Type_get_true_extent"
  | .typeGetEnvelope => some "MPI_Type_get_envelope"
  | .typeGetContents => some "MPI_Type_get_contents" | .typeSize => some "MPI_Type_size"
  | .typeExtent => some "MPI_Type_extent" | .typeLb => some "MPI_Type_lb"
  | .typeUb => some "MPI_Type_ub" | .getAddress => some "MPI_Get_address"
  | .address => some "MPI_Address" | .pack => some "MPI_Pack" | .unpack => some "MPI_Unpack"
  | .packSize => some "MPI_Pack_size" | .packExternal => some "MPI_Pack_external"
  | .unpackExternal => some "MPI_Unpack_external"
  | .packExternalSize => some "MPI_Pack_external_size" | .ibarrier => some "MPI_Ibarrier"
  | .ibcast => some "MPI_Ibcast" | .igather => some "MPI_Igather"
  | .igatherv => some "MPI_Igatherv" | .iscatter => some "MPI_Iscatter"
  | .iscatterv => some "MPI_Iscatterv" | .iallgather => some "MPI_Iallgather"
  | .iallgatherv => some "MPI_Iallgatherv" | .ialltoall => some "MPI_Ialltoall"
  | .ialltoallv => some "MPI_Ialltoallv" | .ialltoallw => some "MPI_Ialltoallw"
  | .ireduce => some "MPI_Ireduce" | .iallreduce => some "MPI_Iallreduce"
  | .ireduceScatter => some "MPI_Ireduce_scatter"
  | .ireduceScatterBlock => some "MPI_Ireduce_scatter_block" | .iscan => some "MPI_Iscan"
  | .iexscan => some "MPI_Iexscan" | .neighborAllgather => some "MPI_Neighbor_allgather"
  | .neighborAllgatherv => some "MPI_Neighbor_allgatherv"
  | .neighborAlltoall => some "MPI_Neighbor_alltoall"
  | .neighborAlltoallv => some "MPI_Neighbor_alltoallv"
  | .neighborAlltoallw => some "MPI_Neighbor_alltoallw"
  | .ineighborAllgather => some "MPI_Ineighbor_allgather"
  | .ineighborAllgatherv => some "MPI_Ineighbor_allgatherv"
  | .ineighborAlltoall => some "MPI_Ineighbor_alltoall"
  | .ineighborAlltoallv => some "MPI_Ineighbor_alltoallv"
  | .ineighborAlltoallw => some "MPI_Ineighbor_alltoallw" | .groupSize => some "MPI_Group_size"
  | .groupRank => some "MPI_Group_rank" | .groupTranslateRanks => some "MPI_Group_translate_ranks"
  | .groupCompare => some "MPI_Group_compare" | .groupUnion => some "MPI_Group_union"
  | .groupIntersection => some "MPI_Group_intersection"
  | .groupDifference => some "MPI_Group_difference" | .groupIncl => some "MPI_Group_incl"
  | .groupExcl => some "MPI_Group_excl" | .groupRangeIncl => some "MPI_Group_range_incl"
  | .groupRangeExcl => some "MPI_Group_range_excl" | .groupFree => some "MPI_Group_free"
  | .commCreate => some "MPI_Comm_create" | .commGroup => some "MPI_Comm_group"
  | .commSetName => some "MPI_Comm_set_name" | .commGetName => some "MPI_Comm_get_name"
  | .commDupWithInfo => some "MPI_Comm_dup_with_info"
  | .commSplitType => some "MPI_Comm_split_type" | .commCreateGroup => some "MPI_Comm_create_group"
  | .commGetInfo => some "MPI_Comm_get_info" | .commSetInfo => some "MPI_Comm_set_info"
  | .commCompare => some "MPI_Comm_compare" | .intercommCreate => some "MPI_Intercomm_create"
  | .intercommMerge => some "MPI_Intercomm_merge" | .commRemoteSize => some "MPI_Comm_remote_size"
  | .commRemoteGroup => some "MPI_Comm_remote_group" | .commTestInter => some "MPI_Comm_test_inter"
  | .cartCreate => some "MPI_Cart_create" | .cartdimGet => some "MPI_Cartdim_get"
  | .cartGet => some "MPI_Cart_get" | .cartRank => some "MPI_Cart_rank"
  | .cartCoords => some "MPI_Cart_coords" | .cartShift => some "MPI_Cart_shift"
  | .cartSub => some "MPI_Cart_sub" | .cartMap => some "MPI_Cart_map"
  | .dimsCreate => some "MPI_Dims_create" | .graphCreate => some "MPI_Graph_create"
  | .graphdimsGet => some "MPI_Graphdims_get" | .graphGet => some "MPI_Graph_get"
  | .graphNeighborsCount => some "MPI_Graph_neighbors_count"
  | .graphNeighbors => some "MPI_Graph_neighbors" | .graphMap => some "MPI_Graph_map"
  | .distGraphCreate => some "MPI_Dist_graph_create"
  | .distGraphCreateAdjacent => some "MPI_Dist_graph_create_adjacent"
  | .distGraphNeighborsCount => some "MPI_Dist_graph_neighbors_count"
  | .distGraphNeighbors => some "MPI_Dist_graph_neighbors" | .topoTest => some "MPI_Topo_test"
  | .winCreate => some "MPI_Win_create" | .winFree => some "MPI_Win_free"
  | .winAllocate => some "MPI_Win_allocate" | .winAllocateShared => some "MPI_Win_allocate_shared"
  | .winCreateDynamic => some "MPI_Win_create_dynamic" | .winSetName => some "MPI_Win_set_name"
  | .winGetName => some "MPI_Win_get_name" | .put => some "MPI_Put" | .get => some "MPI_Get"
  | .accumulate => some "MPI_Accumulate" | .getAccumulate => some "MPI_Get_accumulate"
  | .fetchAndOp => some "MPI_Fetch_and_op" | .compareAndSwap => some "MPI_Compare_and_swap"
  | .rput => some "MPI_Rput" | .rget => some "MPI_Rget" | .raccumulate => some "MPI_Raccumulate"
  | .rgetAccumulate => some "MPI_Rget_accumulate" | .winFence => some "MPI_Win_fence"
  | .winLock => some "MPI_Win_lock" | .winUnlock => some "MPI_Win_unlock"
  | .winLockAll => some "MPI_Win_lock_all" | .winUnlockAll => some "MPI_Win_unlock_all"
  | .winFlush => some "MPI_Win_flush" | .winFlushAll => some "MPI_Win_flush_all"
  | .winSync => some "MPI_Win_sync" | .winFlushLocal => some "MPI_Win_flush_local"
  | .winStart => some "MPI_Win_start" | .winComplete => some "MPI_Win_complete"
  | .winPost => some "MPI_Win_post" | .winWait => some "MPI_Win_wait"
  | .winTest => some "MPI_Win_test" | .fileOpen => some "MPI_File_open"
  | .fileClose => some "MPI_File_close" | .fileDelete => some "MPI_File_delete"
  | .fileSetSize => some "MPI_File_set_size" | .filePreallocate => some "MPI_File_preallocate"
  | .fileGetSize => some "MPI_File_get_size" | .fileGetGroup => some "MPI_File_get_group"
  | .fileGetAmode => some "MPI_File_get_amode" | .fileGetInfo => some "MPI_File_get_info"
  | .fileSetInfo => some "MPI_File_set_info" | .fileSeek => some "MPI_File_seek"
  | .fileGetPosition => some "MPI_File_get_position"
  | .fileGetByteOffset => some "MPI_File_get_byte_offset"
  | .fileSeekShared => some "MPI_File_seek_shared"
  | .fileGetPositionShared => some "MPI_File_get_position_shared"
  | .fileGetTypeExtent => some "MPI_File_get_type_extent" | .fileRead => some "MPI_File_read"
  | .fileReadAll => some "MPI_File_read_all" | .fileWrite => some "MPI_File_write"
  | .fileWriteAll => some "MPI_File_write_all" | .fileReadAt => some "MPI_File_read_at"
  | .fileReadAtAll => some "MPI_File_read_at_all" | .fileWriteAt => some "MPI_File_write_at"
  | .fileWriteAtAll => some "MPI_File_write_at_all"
  | .fileReadShared => some "MPI_File_read_shared"
  | .fileWriteShared => some "MPI_File_write_shared"
  | .fileReadOrdered => some "MPI_File_read_ordered"
  | .fileWriteOrdered => some "MPI_File_write_ordered"
  | .fileReadAllBegin => some "MPI_File_read_all_begin"
  | .fileReadAllEnd => some "MPI_File_read_all_end"
  | .fileReadAtAllBegin => some "MPI_File_read_at_all_begin"
  | .fileReadAtAllEnd => some "MPI_File_read_at_all_end"
  | .fileReadOrderedBegin => some "MPI_File_read_ordered_begin"
  | .fileReadOrderedEnd => some "MPI_File_read_ordered_end"
  | .fileWriteAllBegin => some "MPI_File_write_all_begin"
  | .fileWriteAllEnd => some "MPI_File_write_all_end"
  | .fileWriteAtAllBegin => some "MPI_File_write_at_all_begin"
  | .fileWriteAtAllEnd => some "MPI_File_write_at_all_end"
  | .fileWriteOrderedBegin => some "MPI_File_write_ordered_begin"
  | .fileWriteOrderedEnd => some "MPI_File_write_ordered_end" | .fileIread => some "MPI_File_iread"
  | .fileIwrite => some "MPI_File_iwrite" | .fileIreadAt => some "MPI_File_iread_at"
  | .fileIwriteAt => some "MPI_File_iwrite_at" | .fileIreadShared => some "MPI_File_iread_shared"
  | .fileIwriteShared => some "MPI_File_iwrite_shared" | .fileSetView => some "MPI_File_set_view"
  | .fileGetView => some "MPI_File_get_view" | .commSpawn => some "MPI_Comm_spawn"
  | .commSpawnMultiple => some "MPI_Comm_spawn_multiple" | .commAccept => some "MPI_Comm_accept"
  | .commConnect => some "MPI_Comm_connect" | .commDisconnect => some "MPI_Comm_disconnect"
  | .commJoin => some "MPI_Comm_join" | .commGetParent => some "MPI_Comm_get_parent"
  | .openPort => some "MPI_Open_port" | .closePort => some "MPI_Close_port"
  | .publishName => some "MPI_Publish_name" | .unpublishName => some "MPI_Unpublish_name"
  | .lookupName => some "MPI_Lookup_name" | .infoCreate => some "MPI_Info_create"
  | .infoFree => some "MPI_Info_free" | .infoSet => some "MPI_Info_set"
  | .infoGet => some "MPI_Info_get" | .infoDelete => some "MPI_Info_delete"
  | .infoGetNkeys => some "MPI_Info_get_nkeys" | .infoGetNthkey => some "MPI_Info_get_nthkey"
  | .infoDup => some "MPI_Info_dup" | .infoGetValuelen => some "MPI_Info_get_valuelen"
  | .queryThread => some "MPI_Query_thread" | .isThreadMain => some "MPI_Is_thread_main"
  | .allocMem => some "MPI_Alloc_mem" | .freeMem => some "MPI_Free_mem"
  | .opCreate => some "MPI_Op_create" | .opFree => some "MPI_Op_free"
  | .opCommutative => some "MPI_Op_commutative"
  | .statusSetElements => some "MPI_Status_set_elements"
  | .statusSetCancelled => some "MPI_Status_set_cancelled" | .statusF2c => some "MPI_Status_f2c"
  | .statusC2f => some "MPI_Status_c2f" | .errhandlerCreate => some "MPI_Errhandler_create"
  | .errhandlerFree => some "MPI_Errhandler_free" | .errhandlerSet => some "MPI_Errhandler_set"
  | .errhandlerGet => some "MPI_Errhandler_get"
  | .commGetErrhandler => some "MPI_Comm_get_errhandler"
  | .commSetErrhandler => some "MPI_Comm_set_errhandler"
  | .winGetErrhandler => some "MPI_Win_get_errhandler"
  | .winSetErrhandler => some "MPI_Win_set_errhandler"
  | .fileGetErrhandler => some "MPI_File_get_errhandler"
  | .fileSetErrhandler => some "MPI_File_set_errhandler"
  | .commCreateErrhandler => some "MPI_Comm_create_errhandler"
  | .commCallErrhandler => some "MPI_Comm_call_errhandler"
  | .winCreateErrhandler => some "MPI_Win_create_errhandler"
  | .winCreateKeyval => some "MPI_Win_create_keyval" | .winFreeKeyval => some "MPI_Win_free_keyval"
  | .winSetAttr => some "MPI_Win_set_attr" | .winGetAttr => some "MPI_Win_get_attr"
  | .winDeleteAttr => some "MPI_Win_delete_attr"
  | .commCreateKeyval => some "MPI_Comm_create_keyval"
  | .commFreeKeyval => some "MPI_Comm_free_keyval" | .commSetAttr => some "MPI_Comm_set_attr"
  | .commGetAttr => some "MPI_Comm_get_attr" | .commDeleteAttr => some "MPI_Comm_delete_attr"
  | .typeCreateKeyval => some "MPI_Type_create_keyval"
  | .typeFreeKeyval => some "MPI_Type_free_keyval" | .typeSetAttr => some "MPI_Type_set_attr"
  | .typeGetAttr => some "MPI_Type_get_attr" | .typeDeleteAttr => some "MPI_Type_delete_attr"
  | .keyvalCreate => some "MPI_Keyval_create" | .keyvalFree => some "MPI_Keyval_free"
  | .registerDatarep => some "MPI_Register_datarep" | .winGetGroup => some "MPI_Win_get_group"
  | .winCallErrhandler => some "MPI_Win_call_errhandler"
  | .fileCreateErrhandler => some "MPI_File_create_errhandler"
  | .fileSetAtomicity => some "MPI_File_set_atomicity"
  | .fileGetAtomicity => some "MPI_File_get_atomicity" | .fileSync => some "MPI_File_sync"
  | .fileCallErrhandler => some "MPI_File_call_errhandler"
  | .addErrorClass => some "MPI_Add_error_class" | .addErrorCode => some "MPI_Add_error_code"
  | .addErrorString => some "MPI_Add_error_string" | .errorClass => some "MPI_Error_class"
  | .errorString => some "MPI_Error_string" | .pcontrol => some "MPI_Pcontrol"
  | .attrPut => some "MPI_Attr_put" | .attrGet => some "MPI_Attr_get"
  | .attrDelete => some "MPI_Attr_delete" | .winAttach => some "MPI_Win_attach"
  | .winDetach => some "MPI_Win_detach" | .winSharedQuery => some "MPI_Win_shared_query"
  | .winFlushLocalAll => some "MPI_Win_flush_local_all" | .winGetInfo => some "MPI_Win_get_info"
  | .winSetInfo => some "MPI_Win_set_info" | .typeSizeX => some "MPI_Type_size_x"
  | .typeGetExtentX => some "MPI_Type_get_extent_x"
  | .typeGetTrueExtentX => some "MPI_Type_get_true_extent_x"
  | .typeCreateHindexedBlock => some "MPI_Type_create_hindexed_block"
  | .getElementsX => some "MPI_Get_elements_x"
  | .statusSetElementsX => some "MPI_Status_set_elements_x" | .aintAdd => some "MPI_Aint_add"
  | .aintDiff => some "MPI_Aint_diff" | .fileIreadAll => some "MPI_File_iread_all"
  | .fileIwriteAll => some "MPI_File_iwrite_all" | .fileIreadAtAll => some "MPI_File_iread_at_all"
  | .fileIwriteAtAll => some "MPI_File_iwrite_at_all" | .commIdup => some "MPI_Comm_idup"

/-- The standard name that stands for a member of the MPI-T table. -/
def MtSlot.stdName (s : MtSlot) : Option String :=
  match s with
  | .tInitThread | .tFinalize => none
  | .tCvarGetNum => some "MPI_T_cvar_get_num" | .tCvarGetInfo => some "MPI_T_cvar_get_info"
  | .tCvarHandleAlloc => some "MPI_T_cvar_handle_alloc"
  | .tCvarHandleFree => some "MPI_T_cvar_handle_free" | .tCvarRead => some "MPI_T_cvar_read"
  | .tCvarReadIndex => some "MPI_T_cvar_read_index" | .tCvarWrite => some "MPI_T_cvar_write"
  | .tCvarWriteIndex => some "MPI_T_cvar_write_index" | .tPvarGetNum => some "MPI_T_pvar_get_num"
  | .tPvarGetInfo => some "MPI_T_pvar_get_info"
  | .tPvarSessionCreate => some "MPI_T_pvar_session_create"
  | .tPvarSessionFree => some "MPI_T_pvar_session_free"
  | .tPvarHandleAlloc => some "MPI_T_pvar_handle_alloc"
  | .tPvarHandleFree => some "MPI_T_pvar_handle_free" | .tPvarStart => some "MPI_T_pvar_start"
  | .tPvarStop => some "MPI_T_pvar_stop" | .tPvarRead => some "MPI_T_pvar_read"
  | .tPvarWrite => some "MPI_T_pvar_write" | .tPvarReadreset => some "MPI_T_pvar_readreset"
  | .tPvarReset => some "MPI_T_pvar_reset" | .tPvarAggregate => some "MPI_T_pvar_aggregate"
  | .tCategoryGetNum => some "MPI_T_category_get_num"
  | .tCategoryGetInfo => some "MPI_T_category_get_info"
  | .tCategoryGetCvars => some "MPI_T_category_get_cvars"
  | .tCategoryGetPvars => some "MPI_T_category_get_pvars"
  | .tCategoryGetCategories => some "MPI_T_category_get_categories"
  | .tCategoryChanged => some "MPI_T_category_changed"
  | .tEnumGetInfo => some "MPI_T_enum_get_info" | .tEnumGetItem => some "MPI_T_enum_get_item"
  | .tCvarGetIndex => some "MPI_T_cvar_get_index" | .tPvarGetIndex => some "MPI_T_pvar_get_index"
  | .tCategoryGetIndex => some "MPI_T_category_get_index"

/-- A macro names the native symbol of its member, unless the member is a reader of statuses. -/
theorem Slot.symbol_of_stdName {s : Slot} {name : String} (h : s.stdName = some name)
    (hs : s.kind ≠ .statusReader) : s.symbol = name := by
  cases s <;> first | exact Option.some.inj h | exact (hs rfl).elim | cases h

theorem MtSlot.symbol_of_stdName {s : MtSlot} {name : String} (h : s.stdName = some name) :
    s.symbol = name := by
  cases s <;> first | exact Option.some.inj h | cases h

/-! ## Where the functions come from -/

/-- A function that an opened library exports under the symbol. -/
def FromLibrary (g : Provenance) (symbol : String) (e : Entry) : Prop :=
  ∃ o ∈ g.opened, o.library.exports symbol = true ∧
    e = .native o.library.handle (o.library.dlsym symbol)

/-- What a member may hold: nothing, an adapter where there is one, a local function where there is
one, or a function of its own symbol. -/
def Genuine.Member (g : Provenance) (s : Slot) (e : Entry) : Prop :=
  match s.kind with
  | .native => e = .null ∨ FromLibrary g s.symbol e
  | .requestArray | .typeArray => e = .null ∨ (∃ b, e = .wrapper b) ∨ FromLibrary g s.symbol e
  | .statusReader => e = .null ∨ ∃ b, e = .statusReader b
  | .aint => e = .null ∨ e = .localAint ∨ FromLibrary g s.symbol e

/-- Every member and every recorded function is genuine. -/
structure Genuine (t : Tables) (g : Provenance) : Prop where
  members : ∀ s, Genuine.Member g s (t.unimpi s)
  natives : ∀ b s, t.natives b s = .null ∨ FromLibrary g s.symbol (t.natives b s)
  tools : ∀ s, t.unimpiMt s = .null ∨ FromLibrary g s.symbol (t.unimpiMt s)

section Genuine

variable {g g' : Provenance} {t : Tables} {L : Library}

theorem FromLibrary.mono {symbol : String} {e : Entry} (h : FromLibrary g symbol e)
    (hg : ∀ o ∈ g.opened, o ∈ g'.opened) : FromLibrary g' symbol e := by
  obtain ⟨o, ho, hexports⟩ := h
  exact ⟨o, hg o ho, hexports⟩

theorem Genuine.Member.mono {s : Slot} {e : Entry} (h : Genuine.Member g s e)
    (hg : ∀ o ∈ g.opened, o ∈ g'.opened) : Genuine.Member g' s e := by
  unfold Genuine.Member at h ⊢
  cases hs : s.kind with
  | native =>
    simp only [hs] at h ⊢
    exact h.imp_right fun hlib => hlib.mono hg
  | requestArray | typeArray | aint =>
    simp only [hs] at h ⊢
    exact h.imp_right fun h => h.imp_right fun hlib => hlib.mono hg
  | statusReader =>
    simp only [hs] at h ⊢
    exact h

theorem Genuine.mono (h : Genuine t g) (hg : ∀ o ∈ g.opened, o ∈ g'.opened) : Genuine t g' :=
  ⟨fun s => (h.members s).mono hg, fun b s => (h.natives b s).imp_right fun hlib => hlib.mono hg,
    fun s => (h.tools s).imp_right fun hlib => hlib.mono hg⟩

/-- What `dlsym` gives is null or from the library. -/
theorem bind_genuine {o : Origin} (ho : o ∈ g.opened) (symbol : String) :
    o.library.bind symbol = .null ∨ FromLibrary g symbol (o.library.bind symbol) := by
  cases he : o.library.exports symbol with
  | false => exact Or.inl ((o.library.bind_eq_null_iff symbol).2 he)
  | true => exact Or.inr ⟨o, ho, he, o.library.bind_of_exports he⟩

theorem legacyEntry_genuine {o : Origin} (ho : o ∈ g.opened) (b : BackendType) {old : Entry}
    {s : Slot} (hold : Genuine.Member g s old) :
    Genuine.Member g s (legacyEntry b o.library old s) := by
  have hbind := bind_genuine ho s.symbol
  unfold Genuine.Member legacyEntry at *
  cases hs : s.kind with
  | native => exact hbind
  | requestArray => exact Or.inr (Or.inl ⟨b, rfl⟩)
  | typeArray =>
    simp only [hs] at hold ⊢
    split_ifs
    · exact Or.inr (Or.inl ⟨b, rfl⟩)
    · exact hold
  | statusReader => exact Or.inr ⟨b, rfl⟩
  | aint =>
    simp only
    split_ifs
    · exact hbind.imp_right Or.inr
    · exact Or.inr (Or.inl rfl)

theorem openmpiEntry_genuine {o : Origin} (ho : o ∈ g.opened) (s : Slot) :
    Genuine.Member g s (openmpiEntry o.library s) := by
  have hbind := bind_genuine ho s.symbol
  unfold Genuine.Member openmpiEntry
  cases hs : s.kind with
  | native => exact hbind
  | requestArray | typeArray => exact hbind.imp_right Or.inr
  | statusReader => exact Or.inr ⟨.openmpi, rfl⟩
  | aint =>
    simp only
    split_ifs
    · exact hbind.imp_right Or.inr
    · exact Or.inr (Or.inl rfl)

theorem Genuine.Member.null (g : Provenance) (s : Slot) : Genuine.Member g s .null := by
  unfold Genuine.Member
  split <;> exact Or.inl rfl

theorem Genuine.initial (g : Provenance) : Genuine .initial g :=
  ⟨fun s => .null g s, fun _ _ => Or.inl rfl, fun _ => Or.inl rfl⟩

theorem Genuine.vtableCleanup (h : Genuine t g) : Genuine (vtableCleanup t) g :=
  ⟨fun s => .null g s, h.natives, h.tools⟩

theorem Genuine.vtableInitStart (h : Genuine t g) : Genuine (vtableInitStart t) g :=
  ⟨h.members, h.natives, fun _ => Or.inl rfl⟩

/-- A fill from an opened library keeps the tables genuine. -/
theorem Genuine.fill {o : Origin} {b : BackendType} {t' : Tables} (h : Genuine t g)
    (ho : o ∈ g.opened) (hfill : UniMPI.fill b o.library t = some t') : Genuine t' g := by
  have hlegacy : ∀ b value, Genuine (legacyFill b value o.library t) g := by
    refine fun b value => ⟨fun s => legacyEntry_genuine ho b (h.members s), fun b' s => ?_,
      fun s => bind_genuine ho s.symbol⟩
    simp only [legacyFill, legacyNative]
    split_ifs
    · split
      · exact bind_genuine ho s.symbol
      · exact bind_genuine ho s.symbol
      · exact h.natives b' s
    · exact h.natives b' s
  cases b with
  | openmpi =>
    obtain ⟨-, rfl⟩ := fill_openmpi_eq_some_iff.1 hfill
    exact ⟨openmpiEntry_genuine ho, h.natives, fun s => bind_genuine ho s.symbol⟩
  | unknown | mpich | intelmpi | msmpi =>
    cases hfill
    exact hlegacy _ _

/-- So does an Open MPI fill that fails halfway. -/
theorem Genuine.openmpiFillStart {o : Origin} (h : Genuine t g) (ho : o ∈ g.opened) :
    Genuine (openmpiFillStart o.library t) g := by
  refine ⟨fun s => ?_, h.natives, h.tools⟩
  simp only [UniMPI.openmpiFillStart]
  split_ifs
  · exact h.members s
  · exact openmpiEntry_genuine ho s

end Genuine

/-! ## Every run -/

/-- After its loading, a call leaves the tables alone or clears them. -/
theorem Effect.tables {p : Platform} {env : Env} {st st' : State} {op : Op} {ret : ReturnCode}
    (h : Effect p env st op ret st') :
    st'.tables = (Call.loaded p ⟨op, env⟩ st).tables ∨
      st'.tables = vtableCleanup (Call.loaded p ⟨op, env⟩ st).tables := by
  cases h with
  | refused hret hwhy =>
    rw [Call.loaded_of_none (Call.loads_of_refused hwhy)]
    exact Or.inl rfl
  | loadFailed hcheck hpath hl ho =>
    rw [Call.loaded_of_failed hcheck hpath hl]
    exact Or.inl rfl
  | @initFailed _ _ st₁ hcheck hpath hready hret =>
    have hcleared : (initFailedState op.reuses st₁).tables = vtableCleanup st₁.tables := by
      unfold initFailedState
      split_ifs
      · exact releaseRef_tables _
      · rfl
    rw [hready.eq_loaded_of_path hcheck hpath] at hcleared
    exact Or.inr (by rw [hready.eq_loaded_of_path hcheck hpath]; exact hcleared)
  | started level hcheck hpath hready hret hlevel =>
    rw [hready.eq_loaded_of_path hcheck hpath]
    exact Or.inl rfl
  | finalized hactive hcall =>
    rw [Call.loaded_of_none (Call.loads_eq_none (Or.inl rfl) (by decide))]
    exact Or.inr (releaseRef_tables (cleanup st))
  | mpitLoadFailed hl ho =>
    rw [Call.loaded_of_tools hl]
    exact Or.inl rfl
  | mpitStarted hready hcall =>
    rw [hready.eq_loaded_of_tools]
    exact Or.inl rfl
  | mpitFinalized hcall =>
    rw [Call.loaded_of_none (Call.loads_eq_none (Or.inl rfl) (by decide))]
    exact Or.inl (releaseRef_tables _)

theorem Genuine.load {p : Platform} {env : Env} {path : CString} {st : State} {g : Provenance}
    (h : Genuine st.tables g) :
    Genuine ((loadOutcome p env path st).apply p path st).tables
      (g.load env path (loadOutcome p env path st)) := by
  cases ho : loadOutcome p env path st with
  | notLoaded ret => exact h
  | missingCore L | refused L ret =>
    exact (h.mono fun o ho => List.mem_cons_of_mem _ ho).vtableInitStart
  | unfilled L =>
    have hopened : Genuine st.tables (g.load env path (.unfilled L)) :=
      h.mono fun o ho => List.mem_cons_of_mem _ ho
    exact hopened.vtableInitStart.openmpiFillStart (o := ⟨openedPath env path, L⟩)
      List.mem_cons_self
  | filled L t =>
    have hopened : Genuine st.tables (g.load env path (.filled L t)) :=
      h.mono fun o ho => List.mem_cons_of_mem _ ho
    exact hopened.vtableInitStart.fill (o := ⟨openedPath env path, L⟩) List.mem_cons_self
      (loaderLoad_of_filled ho).2.2.2

theorem Genuine.of_reaches {p : Platform} {C : Sys × Provenance → Call → Prop}
    {t : Sys × Provenance} (h : Reaches (TracedStep p) C tracedInitial t) :
    Genuine t.1.core.tables t.2 := by
  refine h.invariant (P := fun t => Genuine t.1.core.tables t.2) ?_ (.initial _)
  rintro ⟨s, g⟩ c ⟨s', g'⟩ - ⟨hstep, rfl⟩ hgenuine
  obtain ⟨-, ⟨ret, hexec⟩, -⟩ := hstep.cases
  have hloaded : Genuine (c.loaded p s.core).tables (g.record p s c) := by
    unfold Call.loaded Provenance.record
    cases c.loads p s.core with
    | none => exact hgenuine
    | some path => exact hgenuine.load
  dsimp only at hexec ⊢
  rcases (exec_effect hexec).tables with heq | heq
  · rw [heq]
    exact hloaded
  · rw [heq]
    exact hloaded.vtableCleanup

/-! ## Results -/

/-- What a call through a member ends up in: nothing, a local function, or a function of its own
symbol. -/
theorem Genuine.target {t : Tables} {g : Provenance} (h : Genuine t g) (s : Slot) :
    t.target s = .null ∨ FromLibrary g s.symbol (t.target s) ∧ s.kind ≠ .statusReader ∨
      (s.kind = .statusReader ∧ ∃ b, t.target s = .statusReader b) ∨
      s.kind = .aint ∧ t.target s = .localAint := by
  have hplain : ∀ e, t.unimpi s = e → (∀ b, e ≠ .wrapper b) → t.target s = e := by
    intro e he hne
    rw [Tables.target, he]
    cases e with
    | wrapper b => exact absurd rfl (hne b)
    | _ => rfl
  have hnull : t.unimpi s = .null → t.target s = .null := fun he =>
    hplain _ he fun _ => Entry.noConfusion
  have hlib : FromLibrary g s.symbol (t.unimpi s) → FromLibrary g s.symbol (t.target s) := by
    rintro ⟨o, ho, hexports, heq⟩
    exact ⟨o, ho, hexports, hplain _ heq fun _ => Entry.noConfusion⟩
  have hmember := h.members s
  unfold Genuine.Member at hmember
  cases hs : s.kind with
  | native =>
    simp only [hs] at hmember
    exact hmember.imp hnull fun hfrom => Or.inl ⟨hlib hfrom, SlotKind.noConfusion⟩
  | requestArray | typeArray =>
    simp only [hs] at hmember
    rcases hmember with he | ⟨b, he⟩ | hfrom
    · exact Or.inl (hnull he)
    · rw [Tables.target_of_wrapper he]
      exact (h.natives b s).imp_right fun hfrom => Or.inl ⟨hfrom, SlotKind.noConfusion⟩
    · exact Or.inr (Or.inl ⟨hlib hfrom, SlotKind.noConfusion⟩)
  | statusReader =>
    simp only [hs] at hmember
    rcases hmember with he | ⟨b, he⟩
    · exact Or.inl (hnull he)
    · exact Or.inr (Or.inr (Or.inl ⟨rfl, b, hplain _ he fun _ => Entry.noConfusion⟩))
  | aint =>
    simp only [hs] at hmember
    rcases hmember with he | he | hfrom
    · exact Or.inl (hnull he)
    · exact Or.inr (Or.inr (Or.inr ⟨rfl, hplain _ he fun _ => Entry.noConfusion⟩))
    · exact Or.inr (Or.inl ⟨hlib hfrom, SlotKind.noConfusion⟩)

/-- After any run, a call under a standard name reaches a function that an opened library exports
under that name, or a local function of the facade, or nothing. -/
theorem standard_names_genuine {p : Platform} {t : Sys × Provenance}
    (h : Reaches (TracedStep p) (fun _ _ => True) tracedInitial t) :
    (∀ (s : Slot) (name : String), s.stdName = some name →
      t.1.core.tables.target s = .null ∨ FromLibrary t.2 name (t.1.core.tables.target s) ∨
        (s.kind = .statusReader ∧ ∃ b, t.1.core.tables.target s = .statusReader b) ∨
        s.kind = .aint ∧ t.1.core.tables.target s = .localAint) ∧
    ∀ (s : MtSlot) (name : String), s.stdName = some name →
      t.1.core.tables.unimpiMt s = .null ∨ FromLibrary t.2 name (t.1.core.tables.unimpiMt s) := by
  have hgenuine := Genuine.of_reaches h
  constructor
  · intro s name hname
    refine (hgenuine.target s).imp_right (Or.imp_left ?_)
    rintro ⟨hlib, hs⟩
    rwa [Slot.symbol_of_stdName hname hs] at hlib
  · intro s name hname
    rw [← MtSlot.symbol_of_stdName hname]
    exact hgenuine.tools s

/-- After `MPI_Init` over an MPICH library, `MPI_Comm_rank` is that library's. -/
theorem standard_names_genuine_mpich : ∃ t : Sys × Provenance,
    t.1.core.tables.target .commRank ≠ .null ∧
      FromLibrary t.2 "MPI_Comm_rank" (t.1.core.tables.target .commRank) := by
  have hrun : ((Sys.initial.after .linux ⟨.init, .offering (some mpichLibrary) 0⟩).map fun s =>
      decide (s.core.tables.target .commRank = .null)) = some false := by decide +kernel
  obtain ⟨s, hs, hbound⟩ := Option.map_eq_some_iff.1 hrun
  have hne := of_decide_eq_false hbound
  have hnames := (standard_names_genuine (reaches_traced_call trivial hs)).1 .commRank _ rfl
  refine ⟨_, hne, (hnames.resolve_left hne).resolve_right ?_⟩
  rintro (⟨hkind, -⟩ | ⟨hkind, -⟩) <;> cases hkind

end UniMPI

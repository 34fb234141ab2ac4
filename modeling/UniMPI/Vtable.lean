import Mathlib.Data.Nat.Notation

/-!
# The two dispatch tables

`Slot` lists the members of `unimpi_vtable_t` and `MtSlot` those of
`unimpi_mt_vtable_t`, for a facade of MPI 3.1. Every backend binds the same
members; `Slot.symbol` is the native symbol behind a member and `Slot.kind` how
an integer-handle backend binds it. An `Entry` is what a member holds.
-/

namespace UniMPI

/-- The members of `unimpi_vtable_t`. -/
inductive Slot
  | init | initThread | finalize | initialized | finalized | abort | getProcessorName
  | getVersion | getLibraryVersion | barrier | wtime | wtick | send | recv | isend | irecv | wait
  | waitall | sendrecv | sendrecvReplace | ssend | ssendInit | bsend | bsendInit | bufferAttach
  | bufferDetach | rsend | rsendInit | test | testany | testsome | testall | waitany | waitsome
  | probe | iprobe | mprobe | improbe | mrecv | imrecv | sendInit | recvInit | start | startall
  | requestFree | cancel | testCancelled | getCount | getElements | bcast | reduce | allreduce
  | gather | allgather | scatter | gatherv | allgatherv | scatterv | alltoall | alltoallv
  | alltoallw | reduceScatter | reduceScatterBlock | scan | exscan | commSize | commRank
  | commDup | commSplit | commFree | typeCommit | typeFree | typeContiguous | typeVector
  | typeIndexed | typeCreateIndexedBlock | typeCreateSubarray | typeDup | typeCreateResized
  | typeGetEnvelope | typeGetContents | typeHvector | typeHindexed | typeCreateDarray
  | typeGetExtent | typeGetSize | typeGetName | typeSetName | typeGetTrueExtent | typeSize
  | typeSizeX | typeGetExtentX | typeGetTrueExtentX | typeCreateHindexedBlock | getElementsX
  | statusSetElementsX | typeExtent | typeLb | typeUb | pack | unpack | packSize | packExternal
  | unpackExternal | packExternalSize | ibarrier | ibcast | igather | igatherv | iscatter
  | iscatterv | iallgather | iallgatherv | ialltoall | ialltoallv | ialltoallw | ireduce
  | iallreduce | ireduceScatter | ireduceScatterBlock | iscan | iexscan | neighborAllgather
  | neighborAllgatherv | neighborAlltoall | neighborAlltoallv | neighborAlltoallw
  | ineighborAllgather | ineighborAllgatherv | ineighborAlltoall | ineighborAlltoallv
  | ineighborAlltoallw | groupSize | groupRank | groupTranslateRanks | groupCompare | groupUnion
  | groupIntersection | groupDifference | groupIncl | groupExcl | groupRangeIncl | groupRangeExcl
  | groupFree | commCreate | commGroup | commCompare | commSetName | commGetName
  | commDupWithInfo | commSplitType | commCreateGroup | commGetInfo | commSetInfo
  | intercommCreate | intercommMerge | commRemoteSize | commRemoteGroup | commTestInter
  | cartCreate | cartdimGet | cartGet | cartRank | cartCoords | cartShift | cartSub | cartMap
  | dimsCreate | graphCreate | graphdimsGet | graphGet | graphNeighborsCount | graphNeighbors
  | graphMap | distGraphCreate | distGraphCreateAdjacent | distGraphNeighborsCount
  | distGraphNeighbors | topoTest | winCreate | winFree | winAllocate | winAllocateShared
  | winCreateDynamic | winSetName | winGetName | put | get | accumulate | getAccumulate
  | fetchAndOp | compareAndSwap | rput | rget | raccumulate | rgetAccumulate | winFence | winLock
  | winUnlock | winLockAll | winUnlockAll | winFlush | winFlushAll | winSync | winFlushLocal
  | winAttach | winDetach | winSharedQuery | winFlushLocalAll | winGetInfo | winSetInfo
  | winStart | winComplete | winPost | winWait | winTest | fileOpen | fileClose | fileDelete
  | fileSetSize | filePreallocate | fileGetSize | fileGetGroup | fileGetAmode | fileGetInfo
  | fileSetInfo | fileSeek | fileGetPosition | fileGetByteOffset | fileSeekShared
  | fileGetPositionShared | fileGetTypeExtent | fileRead | fileReadAll | fileWrite | fileWriteAll
  | fileReadAt | fileReadAtAll | fileWriteAt | fileWriteAtAll | fileReadShared | fileWriteShared
  | fileReadOrdered | fileWriteOrdered | fileReadAllBegin | fileReadAllEnd | fileReadAtAllBegin
  | fileReadAtAllEnd | fileReadOrderedBegin | fileReadOrderedEnd | fileWriteAllBegin
  | fileWriteAllEnd | fileWriteAtAllBegin | fileWriteAtAllEnd | fileWriteOrderedBegin
  | fileWriteOrderedEnd | fileIread | fileIwrite | fileIreadAt | fileIwriteAt | fileIreadShared
  | fileIwriteShared | fileSetView | fileGetView | commSpawn | commSpawnMultiple | commAccept
  | commConnect | commDisconnect | commJoin | commGetParent | openPort | closePort | publishName
  | unpublishName | lookupName | infoCreate | infoFree | infoSet | infoGet | infoDelete
  | infoGetNkeys | infoGetNthkey | ibsend | irsend | issend | requestGetStatus | grequestStart
  | grequestComplete | reduceLocal | infoDup | infoGetValuelen | typeCreateHvector
  | typeCreateHindexed | typeCreateStruct | typeStruct | typeMatchSize | typeCreateF90Integer
  | typeCreateF90Real | typeCreateF90Complex | getAddress | address | queryThread | isThreadMain
  | allocMem | freeMem | opCreate | opFree | opCommutative | statusSetElements
  | statusSetCancelled | statusF2c | statusC2f | statusGetSource | statusGetTag | statusGetError
  | errhandlerCreate | errhandlerFree | errhandlerSet | errhandlerGet | commGetErrhandler
  | commSetErrhandler | winGetErrhandler | winSetErrhandler | commCreateErrhandler
  | commCallErrhandler | winCreateErrhandler | winCreateKeyval | winFreeKeyval | winSetAttr
  | winGetAttr | winDeleteAttr | commCreateKeyval | commFreeKeyval | commSetAttr | commGetAttr
  | commDeleteAttr | typeCreateKeyval | typeFreeKeyval | typeSetAttr | typeGetAttr
  | typeDeleteAttr | keyvalCreate | keyvalFree | registerDatarep | winGetGroup
  | winCallErrhandler | fileCreateErrhandler | fileSetAtomicity | fileGetAtomicity | fileSync
  | fileCallErrhandler | fileSetErrhandler | fileGetErrhandler | addErrorClass | addErrorCode
  | addErrorString | errorClass | errorString | pcontrol | attrPut | attrGet | attrDelete
  | aintAdd | aintDiff | fileIreadAll | fileIwriteAll | fileIreadAtAll | fileIwriteAtAll
  | commIdup
  deriving DecidableEq

/-- The members of `unimpi_mt_vtable_t`. -/
inductive MtSlot
  | tInitThread | tFinalize | tCvarGetNum | tCvarGetInfo | tCvarHandleAlloc | tCvarHandleFree
  | tCvarRead | tCvarReadIndex | tCvarWrite | tCvarWriteIndex | tPvarGetNum | tPvarGetInfo
  | tPvarSessionCreate | tPvarSessionFree | tPvarHandleAlloc | tPvarHandleFree | tPvarStart
  | tPvarStop | tPvarRead | tPvarWrite | tPvarReadreset | tPvarReset | tPvarAggregate
  | tCategoryGetNum | tCategoryGetInfo | tCategoryGetCvars | tCategoryGetPvars
  | tCategoryGetCategories | tCategoryChanged | tEnumGetInfo | tEnumGetItem | tCvarGetIndex
  | tPvarGetIndex | tCategoryGetIndex
  deriving DecidableEq

/-- The native symbol a member is bound to. The status readers, local to every backend, have
none. -/
def Slot.symbol : Slot → String
  | .init => "MPI_Init" | .initThread => "MPI_Init_thread" | .finalize => "MPI_Finalize"
  | .initialized => "MPI_Initialized" | .finalized => "MPI_Finalized" | .abort => "MPI_Abort"
  | .getProcessorName => "MPI_Get_processor_name" | .getVersion => "MPI_Get_version"
  | .getLibraryVersion => "MPI_Get_library_version" | .barrier => "MPI_Barrier"
  | .wtime => "MPI_Wtime" | .wtick => "MPI_Wtick" | .send => "MPI_Send" | .recv => "MPI_Recv"
  | .isend => "MPI_Isend" | .irecv => "MPI_Irecv" | .wait => "MPI_Wait"
  | .waitall => "MPI_Waitall" | .sendrecv => "MPI_Sendrecv"
  | .sendrecvReplace => "MPI_Sendrecv_replace" | .ssend => "MPI_Ssend"
  | .ssendInit => "MPI_Ssend_init" | .bsend => "MPI_Bsend" | .bsendInit => "MPI_Bsend_init"
  | .bufferAttach => "MPI_Buffer_attach" | .bufferDetach => "MPI_Buffer_detach"
  | .rsend => "MPI_Rsend" | .rsendInit => "MPI_Rsend_init" | .test => "MPI_Test"
  | .testany => "MPI_Testany" | .testsome => "MPI_Testsome" | .testall => "MPI_Testall"
  | .waitany => "MPI_Waitany" | .waitsome => "MPI_Waitsome" | .probe => "MPI_Probe"
  | .iprobe => "MPI_Iprobe" | .mprobe => "MPI_Mprobe" | .improbe => "MPI_Improbe"
  | .mrecv => "MPI_Mrecv" | .imrecv => "MPI_Imrecv" | .sendInit => "MPI_Send_init"
  | .recvInit => "MPI_Recv_init" | .start => "MPI_Start" | .startall => "MPI_Startall"
  | .requestFree => "MPI_Request_free" | .cancel => "MPI_Cancel"
  | .testCancelled => "MPI_Test_cancelled" | .getCount => "MPI_Get_count"
  | .getElements => "MPI_Get_elements" | .bcast => "MPI_Bcast" | .reduce => "MPI_Reduce"
  | .allreduce => "MPI_Allreduce" | .gather => "MPI_Gather" | .allgather => "MPI_Allgather"
  | .scatter => "MPI_Scatter" | .gatherv => "MPI_Gatherv" | .allgatherv => "MPI_Allgatherv"
  | .scatterv => "MPI_Scatterv" | .alltoall => "MPI_Alltoall" | .alltoallv => "MPI_Alltoallv"
  | .alltoallw => "MPI_Alltoallw" | .reduceScatter => "MPI_Reduce_scatter"
  | .reduceScatterBlock => "MPI_Reduce_scatter_block" | .scan => "MPI_Scan"
  | .exscan => "MPI_Exscan" | .commSize => "MPI_Comm_size" | .commRank => "MPI_Comm_rank"
  | .commDup => "MPI_Comm_dup" | .commSplit => "MPI_Comm_split" | .commFree => "MPI_Comm_free"
  | .typeCommit => "MPI_Type_commit" | .typeFree => "MPI_Type_free"
  | .typeContiguous => "MPI_Type_contiguous" | .typeVector => "MPI_Type_vector"
  | .typeIndexed => "MPI_Type_indexed"
  | .typeCreateIndexedBlock => "MPI_Type_create_indexed_block"
  | .typeCreateSubarray => "MPI_Type_create_subarray" | .typeDup => "MPI_Type_dup"
  | .typeCreateResized => "MPI_Type_create_resized" | .typeGetEnvelope => "MPI_Type_get_envelope"
  | .typeGetContents => "MPI_Type_get_contents" | .typeHvector => "MPI_Type_hvector"
  | .typeHindexed => "MPI_Type_hindexed" | .typeCreateDarray => "MPI_Type_create_darray"
  | .typeGetExtent => "MPI_Type_get_extent" | .typeGetSize => "MPI_Type_get_size"
  | .typeGetName => "MPI_Type_get_name" | .typeSetName => "MPI_Type_set_name"
  | .typeGetTrueExtent => "MPI_Type_get_true_extent" | .typeSize => "MPI_Type_size"
  | .typeSizeX => "MPI_Type_size_x" | .typeGetExtentX => "MPI_Type_get_extent_x"
  | .typeGetTrueExtentX => "MPI_Type_get_true_extent_x"
  | .typeCreateHindexedBlock => "MPI_Type_create_hindexed_block"
  | .getElementsX => "MPI_Get_elements_x" | .statusSetElementsX => "MPI_Status_set_elements_x"
  | .typeExtent => "MPI_Type_extent" | .typeLb => "MPI_Type_lb" | .typeUb => "MPI_Type_ub"
  | .pack => "MPI_Pack" | .unpack => "MPI_Unpack" | .packSize => "MPI_Pack_size"
  | .packExternal => "MPI_Pack_external" | .unpackExternal => "MPI_Unpack_external"
  | .packExternalSize => "MPI_Pack_external_size" | .ibarrier => "MPI_Ibarrier"
  | .ibcast => "MPI_Ibcast" | .igather => "MPI_Igather" | .igatherv => "MPI_Igatherv"
  | .iscatter => "MPI_Iscatter" | .iscatterv => "MPI_Iscatterv" | .iallgather => "MPI_Iallgather"
  | .iallgatherv => "MPI_Iallgatherv" | .ialltoall => "MPI_Ialltoall"
  | .ialltoallv => "MPI_Ialltoallv" | .ialltoallw => "MPI_Ialltoallw" | .ireduce => "MPI_Ireduce"
  | .iallreduce => "MPI_Iallreduce" | .ireduceScatter => "MPI_Ireduce_scatter"
  | .ireduceScatterBlock => "MPI_Ireduce_scatter_block" | .iscan => "MPI_Iscan"
  | .iexscan => "MPI_Iexscan" | .neighborAllgather => "MPI_Neighbor_allgather"
  | .neighborAllgatherv => "MPI_Neighbor_allgatherv"
  | .neighborAlltoall => "MPI_Neighbor_alltoall" | .neighborAlltoallv => "MPI_Neighbor_alltoallv"
  | .neighborAlltoallw => "MPI_Neighbor_alltoallw"
  | .ineighborAllgather => "MPI_Ineighbor_allgather"
  | .ineighborAllgatherv => "MPI_Ineighbor_allgatherv"
  | .ineighborAlltoall => "MPI_Ineighbor_alltoall"
  | .ineighborAlltoallv => "MPI_Ineighbor_alltoallv"
  | .ineighborAlltoallw => "MPI_Ineighbor_alltoallw" | .groupSize => "MPI_Group_size"
  | .groupRank => "MPI_Group_rank" | .groupTranslateRanks => "MPI_Group_translate_ranks"
  | .groupCompare => "MPI_Group_compare" | .groupUnion => "MPI_Group_union"
  | .groupIntersection => "MPI_Group_intersection" | .groupDifference => "MPI_Group_difference"
  | .groupIncl => "MPI_Group_incl" | .groupExcl => "MPI_Group_excl"
  | .groupRangeIncl => "MPI_Group_range_incl" | .groupRangeExcl => "MPI_Group_range_excl"
  | .groupFree => "MPI_Group_free" | .commCreate => "MPI_Comm_create"
  | .commGroup => "MPI_Comm_group" | .commCompare => "MPI_Comm_compare"
  | .commSetName => "MPI_Comm_set_name" | .commGetName => "MPI_Comm_get_name"
  | .commDupWithInfo => "MPI_Comm_dup_with_info" | .commSplitType => "MPI_Comm_split_type"
  | .commCreateGroup => "MPI_Comm_create_group" | .commGetInfo => "MPI_Comm_get_info"
  | .commSetInfo => "MPI_Comm_set_info" | .intercommCreate => "MPI_Intercomm_create"
  | .intercommMerge => "MPI_Intercomm_merge" | .commRemoteSize => "MPI_Comm_remote_size"
  | .commRemoteGroup => "MPI_Comm_remote_group" | .commTestInter => "MPI_Comm_test_inter"
  | .cartCreate => "MPI_Cart_create" | .cartdimGet => "MPI_Cartdim_get"
  | .cartGet => "MPI_Cart_get" | .cartRank => "MPI_Cart_rank" | .cartCoords => "MPI_Cart_coords"
  | .cartShift => "MPI_Cart_shift" | .cartSub => "MPI_Cart_sub" | .cartMap => "MPI_Cart_map"
  | .dimsCreate => "MPI_Dims_create" | .graphCreate => "MPI_Graph_create"
  | .graphdimsGet => "MPI_Graphdims_get" | .graphGet => "MPI_Graph_get"
  | .graphNeighborsCount => "MPI_Graph_neighbors_count"
  | .graphNeighbors => "MPI_Graph_neighbors" | .graphMap => "MPI_Graph_map"
  | .distGraphCreate => "MPI_Dist_graph_create"
  | .distGraphCreateAdjacent => "MPI_Dist_graph_create_adjacent"
  | .distGraphNeighborsCount => "MPI_Dist_graph_neighbors_count"
  | .distGraphNeighbors => "MPI_Dist_graph_neighbors" | .topoTest => "MPI_Topo_test"
  | .winCreate => "MPI_Win_create" | .winFree => "MPI_Win_free"
  | .winAllocate => "MPI_Win_allocate" | .winAllocateShared => "MPI_Win_allocate_shared"
  | .winCreateDynamic => "MPI_Win_create_dynamic" | .winSetName => "MPI_Win_set_name"
  | .winGetName => "MPI_Win_get_name" | .put => "MPI_Put" | .get => "MPI_Get"
  | .accumulate => "MPI_Accumulate" | .getAccumulate => "MPI_Get_accumulate"
  | .fetchAndOp => "MPI_Fetch_and_op" | .compareAndSwap => "MPI_Compare_and_swap"
  | .rput => "MPI_Rput" | .rget => "MPI_Rget" | .raccumulate => "MPI_Raccumulate"
  | .rgetAccumulate => "MPI_Rget_accumulate" | .winFence => "MPI_Win_fence"
  | .winLock => "MPI_Win_lock" | .winUnlock => "MPI_Win_unlock"
  | .winLockAll => "MPI_Win_lock_all" | .winUnlockAll => "MPI_Win_unlock_all"
  | .winFlush => "MPI_Win_flush" | .winFlushAll => "MPI_Win_flush_all"
  | .winSync => "MPI_Win_sync" | .winFlushLocal => "MPI_Win_flush_local"
  | .winAttach => "MPI_Win_attach" | .winDetach => "MPI_Win_detach"
  | .winSharedQuery => "MPI_Win_shared_query" | .winFlushLocalAll => "MPI_Win_flush_local_all"
  | .winGetInfo => "MPI_Win_get_info" | .winSetInfo => "MPI_Win_set_info"
  | .winStart => "MPI_Win_start" | .winComplete => "MPI_Win_complete"
  | .winPost => "MPI_Win_post" | .winWait => "MPI_Win_wait" | .winTest => "MPI_Win_test"
  | .fileOpen => "MPI_File_open" | .fileClose => "MPI_File_close"
  | .fileDelete => "MPI_File_delete" | .fileSetSize => "MPI_File_set_size"
  | .filePreallocate => "MPI_File_preallocate" | .fileGetSize => "MPI_File_get_size"
  | .fileGetGroup => "MPI_File_get_group" | .fileGetAmode => "MPI_File_get_amode"
  | .fileGetInfo => "MPI_File_get_info" | .fileSetInfo => "MPI_File_set_info"
  | .fileSeek => "MPI_File_seek" | .fileGetPosition => "MPI_File_get_position"
  | .fileGetByteOffset => "MPI_File_get_byte_offset" | .fileSeekShared => "MPI_File_seek_shared"
  | .fileGetPositionShared => "MPI_File_get_position_shared"
  | .fileGetTypeExtent => "MPI_File_get_type_extent" | .fileRead => "MPI_File_read"
  | .fileReadAll => "MPI_File_read_all" | .fileWrite => "MPI_File_write"
  | .fileWriteAll => "MPI_File_write_all" | .fileReadAt => "MPI_File_read_at"
  | .fileReadAtAll => "MPI_File_read_at_all" | .fileWriteAt => "MPI_File_write_at"
  | .fileWriteAtAll => "MPI_File_write_at_all" | .fileReadShared => "MPI_File_read_shared"
  | .fileWriteShared => "MPI_File_write_shared" | .fileReadOrdered => "MPI_File_read_ordered"
  | .fileWriteOrdered => "MPI_File_write_ordered"
  | .fileReadAllBegin => "MPI_File_read_all_begin" | .fileReadAllEnd => "MPI_File_read_all_end"
  | .fileReadAtAllBegin => "MPI_File_read_at_all_begin"
  | .fileReadAtAllEnd => "MPI_File_read_at_all_end"
  | .fileReadOrderedBegin => "MPI_File_read_ordered_begin"
  | .fileReadOrderedEnd => "MPI_File_read_ordered_end"
  | .fileWriteAllBegin => "MPI_File_write_all_begin"
  | .fileWriteAllEnd => "MPI_File_write_all_end"
  | .fileWriteAtAllBegin => "MPI_File_write_at_all_begin"
  | .fileWriteAtAllEnd => "MPI_File_write_at_all_end"
  | .fileWriteOrderedBegin => "MPI_File_write_ordered_begin"
  | .fileWriteOrderedEnd => "MPI_File_write_ordered_end" | .fileIread => "MPI_File_iread"
  | .fileIwrite => "MPI_File_iwrite" | .fileIreadAt => "MPI_File_iread_at"
  | .fileIwriteAt => "MPI_File_iwrite_at" | .fileIreadShared => "MPI_File_iread_shared"
  | .fileIwriteShared => "MPI_File_iwrite_shared" | .fileSetView => "MPI_File_set_view"
  | .fileGetView => "MPI_File_get_view" | .commSpawn => "MPI_Comm_spawn"
  | .commSpawnMultiple => "MPI_Comm_spawn_multiple" | .commAccept => "MPI_Comm_accept"
  | .commConnect => "MPI_Comm_connect" | .commDisconnect => "MPI_Comm_disconnect"
  | .commJoin => "MPI_Comm_join" | .commGetParent => "MPI_Comm_get_parent"
  | .openPort => "MPI_Open_port" | .closePort => "MPI_Close_port"
  | .publishName => "MPI_Publish_name" | .unpublishName => "MPI_Unpublish_name"
  | .lookupName => "MPI_Lookup_name" | .infoCreate => "MPI_Info_create"
  | .infoFree => "MPI_Info_free" | .infoSet => "MPI_Info_set" | .infoGet => "MPI_Info_get"
  | .infoDelete => "MPI_Info_delete" | .infoGetNkeys => "MPI_Info_get_nkeys"
  | .infoGetNthkey => "MPI_Info_get_nthkey" | .ibsend => "MPI_Ibsend" | .irsend => "MPI_Irsend"
  | .issend => "MPI_Issend" | .requestGetStatus => "MPI_Request_get_status"
  | .grequestStart => "MPI_Grequest_start" | .grequestComplete => "MPI_Grequest_complete"
  | .reduceLocal => "MPI_Reduce_local" | .infoDup => "MPI_Info_dup"
  | .infoGetValuelen => "MPI_Info_get_valuelen" | .typeCreateHvector => "MPI_Type_create_hvector"
  | .typeCreateHindexed => "MPI_Type_create_hindexed"
  | .typeCreateStruct => "MPI_Type_create_struct" | .typeStruct => "MPI_Type_struct"
  | .typeMatchSize => "MPI_Type_match_size"
  | .typeCreateF90Integer => "MPI_Type_create_f90_integer"
  | .typeCreateF90Real => "MPI_Type_create_f90_real"
  | .typeCreateF90Complex => "MPI_Type_create_f90_complex" | .getAddress => "MPI_Get_address"
  | .address => "MPI_Address" | .queryThread => "MPI_Query_thread"
  | .isThreadMain => "MPI_Is_thread_main" | .allocMem => "MPI_Alloc_mem"
  | .freeMem => "MPI_Free_mem" | .opCreate => "MPI_Op_create" | .opFree => "MPI_Op_free"
  | .opCommutative => "MPI_Op_commutative" | .statusSetElements => "MPI_Status_set_elements"
  | .statusSetCancelled => "MPI_Status_set_cancelled" | .statusF2c => "MPI_Status_f2c"
  | .statusC2f => "MPI_Status_c2f" | .errhandlerCreate => "MPI_Errhandler_create"
  | .errhandlerFree => "MPI_Errhandler_free" | .errhandlerSet => "MPI_Errhandler_set"
  | .errhandlerGet => "MPI_Errhandler_get" | .commGetErrhandler => "MPI_Comm_get_errhandler"
  | .commSetErrhandler => "MPI_Comm_set_errhandler"
  | .winGetErrhandler => "MPI_Win_get_errhandler" | .winSetErrhandler => "MPI_Win_set_errhandler"
  | .commCreateErrhandler => "MPI_Comm_create_errhandler"
  | .commCallErrhandler => "MPI_Comm_call_errhandler"
  | .winCreateErrhandler => "MPI_Win_create_errhandler"
  | .winCreateKeyval => "MPI_Win_create_keyval" | .winFreeKeyval => "MPI_Win_free_keyval"
  | .winSetAttr => "MPI_Win_set_attr" | .winGetAttr => "MPI_Win_get_attr"
  | .winDeleteAttr => "MPI_Win_delete_attr" | .commCreateKeyval => "MPI_Comm_create_keyval"
  | .commFreeKeyval => "MPI_Comm_free_keyval" | .commSetAttr => "MPI_Comm_set_attr"
  | .commGetAttr => "MPI_Comm_get_attr" | .commDeleteAttr => "MPI_Comm_delete_attr"
  | .typeCreateKeyval => "MPI_Type_create_keyval" | .typeFreeKeyval => "MPI_Type_free_keyval"
  | .typeSetAttr => "MPI_Type_set_attr" | .typeGetAttr => "MPI_Type_get_attr"
  | .typeDeleteAttr => "MPI_Type_delete_attr" | .keyvalCreate => "MPI_Keyval_create"
  | .keyvalFree => "MPI_Keyval_free" | .registerDatarep => "MPI_Register_datarep"
  | .winGetGroup => "MPI_Win_get_group" | .winCallErrhandler => "MPI_Win_call_errhandler"
  | .fileCreateErrhandler => "MPI_File_create_errhandler"
  | .fileSetAtomicity => "MPI_File_set_atomicity" | .fileGetAtomicity => "MPI_File_get_atomicity"
  | .fileSync => "MPI_File_sync" | .fileCallErrhandler => "MPI_File_call_errhandler"
  | .fileSetErrhandler => "MPI_File_set_errhandler"
  | .fileGetErrhandler => "MPI_File_get_errhandler" | .addErrorClass => "MPI_Add_error_class"
  | .addErrorCode => "MPI_Add_error_code" | .addErrorString => "MPI_Add_error_string"
  | .errorClass => "MPI_Error_class" | .errorString => "MPI_Error_string"
  | .pcontrol => "MPI_Pcontrol" | .attrPut => "MPI_Attr_put" | .attrGet => "MPI_Attr_get"
  | .attrDelete => "MPI_Attr_delete" | .aintAdd => "MPI_Aint_add" | .aintDiff => "MPI_Aint_diff"
  | .fileIreadAll => "MPI_File_iread_all" | .fileIwriteAll => "MPI_File_iwrite_all"
  | .fileIreadAtAll => "MPI_File_iread_at_all" | .fileIwriteAtAll => "MPI_File_iwrite_at_all"
  | .commIdup => "MPI_Comm_idup"
  | .statusGetSource | .statusGetTag | .statusGetError => ""

/-- The native symbol of a member of the MPI-T table. -/
def MtSlot.symbol : MtSlot → String
  | .tInitThread => "MPI_T_init_thread" | .tFinalize => "MPI_T_finalize"
  | .tCvarGetNum => "MPI_T_cvar_get_num" | .tCvarGetInfo => "MPI_T_cvar_get_info"
  | .tCvarHandleAlloc => "MPI_T_cvar_handle_alloc" | .tCvarHandleFree => "MPI_T_cvar_handle_free"
  | .tCvarRead => "MPI_T_cvar_read" | .tCvarReadIndex => "MPI_T_cvar_read_index"
  | .tCvarWrite => "MPI_T_cvar_write" | .tCvarWriteIndex => "MPI_T_cvar_write_index"
  | .tPvarGetNum => "MPI_T_pvar_get_num" | .tPvarGetInfo => "MPI_T_pvar_get_info"
  | .tPvarSessionCreate => "MPI_T_pvar_session_create"
  | .tPvarSessionFree => "MPI_T_pvar_session_free"
  | .tPvarHandleAlloc => "MPI_T_pvar_handle_alloc" | .tPvarHandleFree => "MPI_T_pvar_handle_free"
  | .tPvarStart => "MPI_T_pvar_start" | .tPvarStop => "MPI_T_pvar_stop"
  | .tPvarRead => "MPI_T_pvar_read" | .tPvarWrite => "MPI_T_pvar_write"
  | .tPvarReadreset => "MPI_T_pvar_readreset" | .tPvarReset => "MPI_T_pvar_reset"
  | .tPvarAggregate => "MPI_T_pvar_aggregate" | .tCategoryGetNum => "MPI_T_category_get_num"
  | .tCategoryGetInfo => "MPI_T_category_get_info"
  | .tCategoryGetCvars => "MPI_T_category_get_cvars"
  | .tCategoryGetPvars => "MPI_T_category_get_pvars"
  | .tCategoryGetCategories => "MPI_T_category_get_categories"
  | .tCategoryChanged => "MPI_T_category_changed" | .tEnumGetInfo => "MPI_T_enum_get_info"
  | .tEnumGetItem => "MPI_T_enum_get_item" | .tCvarGetIndex => "MPI_T_cvar_get_index"
  | .tPvarGetIndex => "MPI_T_pvar_get_index" | .tCategoryGetIndex => "MPI_T_category_get_index"

/-- How an integer-handle backend binds a member. -/
inductive SlotKind
  /-- The native symbol. -/
  | native
  /-- The adapter over a request array, whatever the backend exports. -/
  | requestArray
  /-- The adapter over handle arrays if the backend exports the symbol; else the member is not
  written. -/
  | typeArray
  /-- A local reader of the status layout. -/
  | statusReader
  /-- The native symbol, or a local function without it. -/
  | aint
  deriving DecidableEq

def Slot.kind : Slot → SlotKind
  | .waitall | .testany | .testsome | .testall | .waitany | .waitsome | .startall => .requestArray
  | .alltoallw | .ialltoallw | .typeGetContents | .neighborAlltoallv | .neighborAlltoallw
  | .ineighborAlltoallv | .ineighborAlltoallw | .commSpawnMultiple | .typeCreateStruct
  | .typeStruct => .typeArray
  | .statusGetSource | .statusGetTag | .statusGetError => .statusReader
  | .aintAdd | .aintDiff => .aint
  | _ => .native

end UniMPI

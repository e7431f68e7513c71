import GrpcStubs.Schema
import GrpcStubs.Template.Layout

set_option autoImplicit false

namespace GrpcStubs.Server
open Template

/-- Bindings: `server_mod`, `trait_ident`, `server_ident`, `service_name`, `service_doc`,
    `trait_methods`, `routes`. -/
def moduleTemplate : String :=
  ofLines [
    "    /// Generated server implementations.",
    "    pub mod $server_mod$ \x7b",
    "        #![allow(",
    "            unused_variables,",
    "            dead_code,",
    "            missing_docs,",
    "            deprecated,",
    "            clippy::wildcard_imports,",
    "            clippy::let_unit_value,",
    "        )]",
    "        use tonic::codegen::*;",
    "",
    "        /// Generated trait containing gRPC methods that should be implemented for use with $server_ident$.",
    "        #[async_trait]",
    "        pub trait $trait_ident$: std::marker::Send + std::marker::Sync + 'static \x7b",
    "            $trait_methods$",
    "        \x7d",
    "",
    "        $service_doc$",
    "        #[derive(Debug)]",
    "        pub struct $server_ident$<T> \x7b",
    "            inner: Arc<T>,",
    "            accept_compression_encodings: EnabledCompressionEncodings,",
    "            send_compression_encodings: EnabledCompressionEncodings,",
    "            max_decoding_message_size: Option<usize>,",
    "            max_encoding_message_size: Option<usize>,",
    "        \x7d",
    "",
    "        impl<T> $server_ident$<T> \x7b",
    "            pub fn new(inner: T) -> Self \x7b",
    "                Self::from_arc(Arc::new(inner))",
    "            \x7d",
    "",
    "            pub fn from_arc(inner: Arc<T>) -> Self \x7b",
    "                Self \x7b",
    "                    inner,",
    "                    accept_compression_encodings: Default::default(),",
    "                    send_compression_encodings: Default::default(),",
    "                    max_decoding_message_size: None,",
    "                    max_encoding_message_size: None,",
    "                \x7d",
    "            \x7d",
    "",
    "            pub fn with_interceptor<F>(inner: T, interceptor: F) -> InterceptedService<Self, F>",
    "            where",
    "                F: tonic::service::Interceptor,",
    "            \x7b",
    "                InterceptedService::new(Self::new(inner), interceptor)",
    "            \x7d",
    "",
    "            /// Enable decompressing requests with the given encoding.",
    "            #[must_use]",
    "            pub fn accept_compressed(mut self, encoding: CompressionEncoding) -> Self \x7b",
    "                self.accept_compression_encodings.enable(encoding);",
    "                self",
    "            \x7d",
    "",
    "            /// Compress responses with the given encoding, if the client supports it.",
    "            #[must_use]",
    "            pub fn send_compressed(mut self, encoding: CompressionEncoding) -> Self \x7b",
    "                self.send_compression_encodings.enable(encoding);",
    "                self",
    "            \x7d",
    "",
    "            /// Limits the maximum size of a decoded message.",
    "            ///",
    "            /// Default: `4MB`",
    "            #[must_use]",
    "            pub fn max_decoding_message_size(mut self, limit: usize) -> Self \x7b",
    "                self.max_decoding_message_size = Some(limit);",
    "                self",
    "            \x7d",
    "",
    "            /// Limits the maximum size of an encoded message.",
    "            ///",
    "            /// Default: `usize::MAX`",
    "            #[must_use]",
    "            pub fn max_encoding_message_size(mut self, limit: usize) -> Self \x7b",
    "                self.max_encoding_message_size = Some(limit);",
    "                self",
    "            \x7d",
    "        \x7d",
    "",
    "        impl<T, B> tonic::codegen::Service<http::Request<B>> for $server_ident$<T>",
    "        where",
    "            T: $trait_ident$,",
    "            B: Body + std::marker::Send + 'static,",
    "            B::Error: Into<StdError> + std::marker::Send + 'static,",
    "        \x7b",
    "            type Response = http::Response<tonic::body::Body>;",
    "            type Error = std::convert::Infallible;",
    "            type Future = BoxFuture<Self::Response, Self::Error>;",
    "",
    "            fn poll_ready(",
    "                &mut self,",
    "                _cx: &mut Context<'_>,",
    "            ) -> Poll<std::result::Result<(), Self::Error>> \x7b",
    "                Poll::Ready(Ok(()))",
    "            \x7d",
    "",
    "            fn call(&mut self, req: http::Request<B>) -> Self::Future \x7b",
    "                match req.uri().path() \x7b",
    "                    $routes$",
    "                    _ => \x7b",
    "                        Box::pin(async move \x7b",
    "                            let mut response = http::Response::new(",
    "                                tonic::body::Body::default(),",
    "                            );",
    "                            let headers = response.headers_mut();",
    "                            headers",
    "                                .insert(",
    "                                    tonic::Status::GRPC_STATUS,",
    "                                    (tonic::Code::Unimplemented as i32).into(),",
    "                                );",
    "                            headers",
    "                                .insert(",
    "                                    http::header::CONTENT_TYPE,",
    "                                    tonic::metadata::GRPC_CONTENT_TYPE,",
    "                                );",
    "                            Ok(response)",
    "                        \x7d)",
    "                    \x7d",
    "                \x7d",
    "            \x7d",
    "        \x7d",
    "",
    "        impl<T> Clone for $server_ident$<T> \x7b",
    "            fn clone(&self) -> Self \x7b",
    "                let inner = self.inner.clone();",
    "                Self \x7b",
    "                    inner,",
    "                    accept_compression_encodings: self.accept_compression_encodings,",
    "                    send_compression_encodings: self.send_compression_encodings,",
    "                    max_decoding_message_size: self.max_decoding_message_size,",
    "                    max_encoding_message_size: self.max_encoding_message_size,",
    "                \x7d",
    "            \x7d",
    "        \x7d",
    "",
    "        /// Generated gRPC service name",
    "        pub const SERVICE_NAME: &str = \"$service_name$\";",
    "",
    "        impl<T> tonic::server::NamedService for $server_ident$<T> \x7b",
    "            const NAME: &'static str = SERVICE_NAME;",
    "        \x7d",
    "    \x7d"]

def requestType (shape : Shape) : String :=
  if shape.clientStreams then "tonic::Request<tonic::Streaming<$request$>>"
  else "tonic::Request<$request$>"

def responseType (shape : Shape) : String :=
  if shape.serverStreams then "tonic::Response<BoxStream<$response$>>"
  else "tonic::Response<$response$>"

/-- Bindings: `ident`, `request`, `response`. -/
def traitTemplate (shape : Shape) : String :=
  ofLines [
    "    async fn $ident$(",
    "        &self,",
    "        request: " ++ requestType shape ++ ",",
    "    ) -> std::result::Result<" ++ responseType shape ++ ", tonic::Status> \x7b",
    "        Err(tonic::Status::unimplemented(\"Not yet implemented\"))",
    "    \x7d"]

/-- Bindings: `path`, `trait_ident`, `svc_ident`, `svc_impl`, `codec`, `grpc_call`. -/
def routeTemplate : String :=
  ofLines [
    "    \"$path$\" => \x7b",
    "        #[allow(non_camel_case_types)]",
    "        struct $svc_ident$<T: $trait_ident$>(pub Arc<T>);",
    "        $svc_impl$",
    "        let accept_compression_encodings = self.accept_compression_encodings;",
    "        let send_compression_encodings = self.send_compression_encodings;",
    "        let max_decoding_message_size = self.max_decoding_message_size;",
    "        let max_encoding_message_size = self.max_encoding_message_size;",
    "        let inner = self.inner.clone();",
    "        let fut = async move \x7b",
    "            let method = $svc_ident$(inner);",
    "            let codec = $codec$::default();",
    "            let mut grpc = tonic::server::Grpc::new(codec)",
    "                .apply_compression_config(",
    "                    accept_compression_encodings,",
    "                    send_compression_encodings,",
    "                )",
    "                .apply_max_message_size_config(",
    "                    max_decoding_message_size,",
    "                    max_encoding_message_size,",
    "                );",
    "            let res = grpc.$grpc_call$(method, req).await;",
    "            Ok(res)",
    "        \x7d;",
    "        Box::pin(fut)",
    "    \x7d"]

def serviceKind : Shape → String
  | .unary => "UnaryService"
  | .serverStreaming => "ServerStreamingService"
  | .clientStreaming => "ClientStreamingService"
  | .streaming => "StreamingService"

/-- The types that an adapter declares: what the client gets, and in which form. -/
def adapterTypes (shape : Shape) : List String :=
  if shape.serverStreams then [
    "        type Response = $response$;",
    "        type ResponseStream = BoxStream<$response$>;",
    "        type Future = BoxFuture<tonic::Response<Self::ResponseStream>, tonic::Status>;"]
  else [
    "        type Response = $response$;",
    "        type Future = BoxFuture<tonic::Response<Self::Response>, tonic::Status>;"]

def adapterCall (shape : Shape) : List String :=
  if shape.clientStreams then [
    "        fn call(",
    "            &mut self,",
    "            request: " ++ requestType shape ++ ",",
    "        ) -> Self::Future \x7b"]
  else ["        fn call(&mut self, request: " ++ requestType shape ++ ") -> Self::Future \x7b"]

/-- Bindings: `trait_ident`, `svc_ident`, `ident`, `request`, `response`. -/
def adapterTemplate (shape : Shape) : String :=
  ofLines ([
    "    impl<T: $trait_ident$> tonic::server::" ++ serviceKind shape ++
      "<$request$> for $svc_ident$<T> \x7b"] ++
    adapterTypes shape ++ adapterCall shape ++ [
    "            let inner = Arc::clone(&self.0);",
    "            let fut = async move \x7b",
    "                <T as $trait_ident$>::$ident$(&inner, request).await",
    "            \x7d;",
    "            Box::pin(fut)",
    "        \x7d",
    "    \x7d"])

end GrpcStubs.Server
